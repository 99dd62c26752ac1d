import Mathlib.Data.List.TakeDrop
import Minimization.Proofs.Chart.Surfaces

/-!
# Paths of histories

The paths of histories are drawn one after the other on one figure, each as a line with a cross at its end. A
history can be drawn if its positions are planar; if they are not, it matters whether they have at least one
length (`consists_path_of_planar`, `consists_path_of_size`, `consists_path_of_sizes`).

Planar histories are drawn and leave the others as they were (`consists_drawAll_append`), so that everything
depends on the first history that is not planar. Main result: `ends_paths`. On a surface that refuses nothing
there are four ways to go on once the figure is open, `Ends`, and each of them says what is done then; on any
other surface the same is done, up to what is refused.
-/

namespace Minimization.Chart

/-! ## What is to be drawn -/

/-- All positions of a history lie in the plane. -/
def IsPlanar (h : History Float) : Prop := ∀ x ∈ h.positions, x.size = 2

instance : DecidablePred IsPlanar := fun h => inferInstanceAs (Decidable (∀ x ∈ h.positions, x.size = 2))

/-- All positions of a history have one length. -/
def IsUniform (h : History Float) : Prop := ∃ n, ∀ x ∈ h.positions, x.size = n

/-- The labels of so many histories: those that are given, if they are as many, and their numbers if none are
given. -/
def labels? (count : Nat) : Value → Option (List Value)
  | .null => some ((List.range count).map fun i => .text s!"run {i}")
  | given =>
    match given.parts with
    | .ok names => if names.length = count then some names else none
    | .error _ => none

/-- The coordinates of positions along an axis. -/
def along (axis : Nat) (xs : List (Tensor Float)) : Ink := .numbers (xs.map fun x => x.entries.getD axis 0.0)

/-- The line through positions. -/
def line (name : Value) (xs : List (Tensor Float)) : Stroke :=
  ⟨.canvas, "plot", [along 0 xs, along 1 xs], [("marker", .text "."), ("label", .value name)]⟩

/-- The cross at the last position. -/
def cross (xs : List (Tensor Float)) : Stroke :=
  ⟨.canvas, "scatter", [along 0 xs.getLast?.toList, along 1 xs.getLast?.toList], [("marker", .text "x")]⟩

/-- The labelled histories with positions. -/
def shown (items : List (History Float × Value)) : List (History Float × Value) :=
  items.filter fun item => !item.1.positions.isEmpty

/-- The line and the cross of every labelled history with positions. -/
def pictures (items : List (History Float × Value)) : List Stroke :=
  (shown items).flatMap fun item => [line item.2 item.1.positions, cross item.1.positions]

/-- The call that opens the figure of paths. -/
def opening : Stroke := ⟨.canvas, "figure", [], [("figsize", .pair (.int 6) (.int 6))]⟩

/-- The call that closes a figure. -/
def closing : Stroke := ⟨.canvas, "close", [], []⟩

/-- The call that saves the picture. -/
def saving : Stroke := ⟨.canvas, "savefig", [.picture], []⟩

/-- The pictures of labelled histories, as what is done. -/
def pictured (items : List (History Float × Value)) : List Action := (pictures items).map .call

/-- What is done before any history is looked at. -/
def beginning : List Action := [.locate, .call opening]

/-- What is done around the paths, when all of them are drawn. -/
def around (title : Value) : List Action :=
  .makeDirectory :: .call ⟨.canvas, "xlabel", [.text "x0"], []⟩ ::
    .call ⟨.canvas, "ylabel", [.text "x1"], []⟩ :: .call ⟨.canvas, "axis", [.text "equal"], []⟩ ::
    ((if title.isPresent then [.call ⟨.canvas, "title", [.value title], []⟩] else []) ++
      [.call ⟨.canvas, "legend", [], [("loc", .text "best")]⟩, .call ⟨.canvas, "tight_layout", [], []⟩])

/-! ## One history -/

theorem width_eq {x : Tensor Float} (h : x.rank = 1) : width x = x.size := by
  obtain ⟨n, hn⟩ := List.length_eq_one_iff.mp h
  rw [width, hn, Tensor.size, x.length_entries, hn]
  exact (Nat.mul_one n).symm

section Positions

variable {xs : List (Tensor Float)} (hrank : ∀ x ∈ xs, x.rank = 1)
include hrank

/-- Vectors of one length are stacked, one as a row below the other. -/
theorem stacked_of_size {n : Nat} (hne : xs ≠ []) (hsize : ∀ x ∈ xs, x.size = n) :
    stacked xs = .ok (n, xs.map Tensor.entries) := by
  have hwidth : ∀ x ∈ xs, width x = n := fun x hx => (width_eq (hrank x hx)).trans (hsize x hx)
  rcases xs with _ | ⟨x, rest⟩
  · exact absurd rfl hne
  · have hall : (rest.all fun t => width t == n) = true :=
      List.all_eq_true.mpr fun t ht => beq_iff_eq.mpr (hwidth t (List.mem_cons_of_mem x ht))
    rw [stacked]
    dsimp only
    rw [hwidth x (List.mem_cons_self ..), if_pos hall, List.map_eq_flatMap (f := Tensor.entries),
      List.flatMap_def, List.flatMap_def]
    refine congrArg Except.ok (congrArg (Prod.mk n) (congrArg List.flatten ?_))
    refine List.map_congr_left fun t ht => ?_
    obtain ⟨k, hk⟩ := List.length_eq_one_iff.mp (hrank t ht)
    rw [hk]
    show [t.entries.take n] = _
    rw [List.take_of_length_le (Nat.le_of_eq (hsize t ht))]

/-- Vectors of different lengths cannot be stacked. -/
theorem stacked_of_sizes (h : ¬ ∃ n, ∀ x ∈ xs, x.size = n) : stacked xs = .error .incompatibleShapes := by
  rcases xs with _ | ⟨x, rest⟩
  · exact absurd ⟨0, nofun⟩ h
  · rw [stacked]
    dsimp only
    rw [if_neg]
    intro hall
    refine h ⟨width x, fun t ht => ?_⟩
    rw [← width_eq (hrank t ht)]
    rcases List.mem_cons.mp ht with rfl | ht
    · rfl
    · exact beq_iff_eq.mp (List.all_eq_true.mp hall t ht)

omit hrank in
theorem column_map (axis : Nat) : column axis (xs.map Tensor.entries) = along axis xs := by
  rw [column, along, List.map_map]
  rfl

/-- A history in the plane is drawn as a line and a cross. -/
theorem consists_path_of_planar (hne : xs ≠ []) (hsize : ∀ x ∈ xs, x.size = 2) (name : Value) :
    Draw.Consists (path (.ok name) xs) [.call (line name xs), .call (cross xs)] (.ok ()) := by
  have hlast : (xs.map Tensor.entries).drop ((xs.map Tensor.entries).length - 1)
      = xs.getLast?.toList.map Tensor.entries := by
    rw [List.length_map, ← List.map_drop, List.drop_length_sub_one hne, List.getLast?_eq_some_getLast hne]
    rfl
  rw [path, stacked_of_size hrank hne hsize]
  refine .bind (.lift _) ?_
  dsimp only
  rw [if_neg (not_not.mpr rfl), hlast, column_map, column_map, column_map, column_map]
  exact .bind (.lift (.ok name)) (.bind (.act (.call (line name xs))) (.act (.call (cross xs))))

/-- The figure is closed before the failure is reported. -/
theorem consists_path_of_size {n : Nat} (hne : xs ≠ []) (hn : n ≠ 2) (hsize : ∀ x ∈ xs, x.size = n)
    (label : Except Failure Value) :
    Draw.Consists (path label xs) [.call closing] (.error (.argument (.notPlanar n))) := by
  rw [path, stacked_of_size hrank hne hsize]
  refine .bind (.lift _) ?_
  dsimp only
  rw [if_pos hn]
  exact (Draw.Consists.act (.call closing)).bind (.lift (.error _))

/-- The failure comes from the stacking, before anything is done about the figure. -/
theorem consists_path_of_sizes (h : ¬ ∃ n, ∀ x ∈ xs, x.size = n) (label : Except Failure Value) :
    Draw.Consists (path label xs) [] (.error .incompatibleShapes) := by
  rw [path, stacked_of_sizes hrank h]
  exact .bind_error (.lift (.error _))

end Positions

/-! ## Labels -/

section Labels

variable {labels : Value} {count : Nat} {names : List Value}

theorem checkLabels_of_ne_null (hnull : labels ≠ .null) :
    checkLabels labels count = labels.parts >>= fun given =>
      if given.length ≠ count then .error (.argument (.labelCount given.length count)) else .ok () := by
  unfold checkLabels
  split
  next => exact absurd rfl hnull
  next => rfl

theorem labels?_of_ne_null (hnull : labels ≠ .null) :
    labels? count labels =
      match labels.parts with
      | .ok given => if given.length = count then some given else none
      | .error _ => none := by
  unfold labels?
  split
  next => exact absurd rfl hnull
  next => rfl

theorem labelOf_of_parts (hnull : labels ≠ .null) (hplaces : ∀ fields, labels ≠ .object fields)
    {given : List Value} (hgiven : labels.parts = .ok given) (i : Nat) :
    labelOf labels i = .ok (given.getD i .null) := by
  unfold labelOf
  split
  next => exact absurd rfl hnull
  next fields => exact absurd rfl (hplaces fields)
  next =>
    rw [hgiven]
    rfl

theorem map_range_getD (xs : List Value) : (List.range xs.length).map (fun i => xs.getD i .null) = xs := by
  apply List.ext_getElem
  · simp
  · intro i _ hi
    simp [List.getElem?_eq_getElem hi]

/-- Labels that fit are accepted, and every history has one. -/
theorem exists_name (hplaces : ∀ fields, labels ≠ .object fields) (h : labels? count labels = some names) :
    checkLabels labels count = .ok () ∧
      ∃ name : Nat → Value, (∀ i, labelOf labels i = .ok (name i)) ∧ (List.range count).map name = names := by
  by_cases hnull : labels = .null
  · subst hnull
    exact ⟨rfl, fun i => .text s!"run {i}", fun _ => rfl, Option.some.inj h⟩
  · rw [labels?_of_ne_null hnull] at h
    rcases hgiven : labels.parts with e | given
    · rw [hgiven] at h
      cases h
    · rw [hgiven] at h
      obtain ⟨rfl, hnames⟩ := Option.ite_none_right_eq_some.mp h
      obtain rfl := Option.some.inj hnames
      refine ⟨?_, fun i => given.getD i .null, labelOf_of_parts hnull hplaces hgiven, map_range_getD given⟩
      rw [checkLabels_of_ne_null hnull, hgiven]
      exact if_neg (not_not.mpr rfl)

theorem length_of_labels? (hplaces : ∀ fields, labels ≠ .object fields)
    (h : labels? count labels = some names) : names.length = count := by
  obtain ⟨-, name, -, rfl⟩ := exists_name hplaces h
  rw [List.length_map, List.length_range]

/-- Labels that do not fit are refused. -/
theorem exists_error (h : labels? count labels = none) : ∃ e, checkLabels labels count = .error e := by
  have hnull : labels ≠ .null := by
    rintro rfl
    cases h
  rw [labels?_of_ne_null hnull] at h
  rw [checkLabels_of_ne_null hnull]
  rcases hgiven : labels.parts with e | given
  · exact ⟨e, rfl⟩
  · rw [hgiven] at h
    refine ⟨_, if_pos fun hlength => ?_⟩
    exact Option.some_ne_none given ((if_pos hlength).symm.trans h)

end Labels

/-! ## All histories -/

/-- Draws labelled histories one after the other. -/
def drawAll (items : List (History Float × Value)) : Draw Unit :=
  (shown items).forM fun item => path (.ok item.2) item.1.positions

theorem consists_title (title : Value) :
    Draw.Consists (Draw.title .canvas "title" title)
      (if title.isPresent then [.call ⟨.canvas, "title", [.value title], []⟩] else []) (.ok ()) := by
  unfold Draw.title
  split
  · exact .act _
  · exact .pure ()

theorem consists_canvas (action : String) (arguments : List Ink) :
    Draw.Consists (Draw.canvas action arguments) [.call ⟨.canvas, action, arguments, []⟩] (.ok ()) := .act _

theorem consists_finish :
    Draw.Consists Draw.finish [.call ⟨.canvas, "tight_layout", [], []⟩, .call saving, .call closing]
      (.ok ()) :=
  (consists_canvas "tight_layout" []).bind <| (consists_canvas "savefig" [.picture]).bind <|
    consists_canvas "close" []

theorem consists_finishPaths (title : Value) :
    Draw.Consists (finishPaths title) (around title ++ [.call saving, .call closing]) (.ok ()) := by
  show Draw.Consists _ (_ :: _ :: _ :: _ :: (_ ++ _ ++ _)) _
  rw [List.append_assoc]
  exact (Draw.Consists.act .makeDirectory).bind <| (consists_canvas "xlabel" [.text "x0"]).bind <|
    (consists_canvas "ylabel" [.text "x1"]).bind <| (consists_canvas "axis" [.text "equal"]).bind <|
    (consists_title title).bind <| (Draw.Consists.act (.call _)).bind consists_finish

section Histories

variable {items before : List (History Float × Value)} {item : History Float × Value}

theorem shown_cons_of_eq_nil (h : item.1.positions = []) : shown (item :: items) = shown items :=
  List.filter_cons_of_neg (by simp [h])

theorem shown_cons_of_ne_nil (h : item.1.positions ≠ []) : shown (item :: items) = item :: shown items :=
  List.filter_cons_of_pos (by simpa using h)

theorem drawAll_cons_of_ne_nil (h : item.1.positions ≠ []) :
    drawAll (item :: items) = path (.ok item.2) item.1.positions >>= fun _ => drawAll items := by
  rw [drawAll, shown_cons_of_ne_nil h]
  rfl

theorem pictures_cons_of_ne_nil (h : item.1.positions ≠ []) :
    pictures (item :: items) = [line item.2 item.1.positions, cross item.1.positions] ++ pictures items := by
  rw [pictures, shown_cons_of_ne_nil h]
  rfl

/-- Planar histories are drawn, and it goes on with the others. -/
theorem consists_drawAll_append (hrank : ∀ b ∈ before, ∀ x ∈ b.1.positions, x.rank = 1)
    (hplanar : ∀ b ∈ before, IsPlanar b.1) {rest : List Action} {r : Except Failure Unit}
    (h : Draw.Consists (drawAll items) rest r) :
    Draw.Consists (drawAll (before ++ items)) (pictured before ++ rest) r := by
  induction before with
  | nil => exact h
  | cons b before ih =>
    obtain ⟨hrankb, hrank⟩ := List.forall_mem_cons.mp hrank
    obtain ⟨hplanarb, hplanar⟩ := List.forall_mem_cons.mp hplanar
    rw [List.cons_append]
    rcases eq_or_ne b.1.positions [] with hnil | hne
    · rw [drawAll, pictured, pictures, shown_cons_of_eq_nil hnil, shown_cons_of_eq_nil hnil, ← drawAll,
        ← pictures, ← pictured]
      exact ih hrank hplanar
    · rw [drawAll_cons_of_ne_nil hne, pictured, pictures_cons_of_ne_nil hne, List.map_append,
        List.append_assoc]
      exact (consists_path_of_planar hrankb hne hplanarb b.2).bind (ih hrank hplanar)

/-- What is done on the figure that is open for the paths of labelled histories, and what comes of it. -/
inductive Ends (items : List (History Float × Value)) (title : Value) :
    Except Failure Unit → List Action → Prop where
  /-- Positions of different lengths cannot be stacked, and nobody closes the figure. -/
  | torn {before item after} (heq : items = before ++ item :: after) (hplanar : ∀ b ∈ before, IsPlanar b.1)
      (hitem : ¬ IsUniform item.1) : Ends items title (.error .incompatibleShapes) (pictured before)
  | unplanar {before item after n} (heq : items = before ++ item :: after)
      (hplanar : ∀ b ∈ before, IsPlanar b.1) (hitem : ¬ IsPlanar item.1)
      (hsize : ∀ x ∈ item.1.positions, x.size = n) :
      Ends items title (.error (.argument (.notPlanar n))) (pictured before ++ [.call closing])
  | blank (hblank : ∀ item ∈ items, item.1.positions = []) :
      Ends items title (.ok ()) (pictured items ++ [.call closing])
  | drawn (hplanar : ∀ item ∈ items, IsPlanar item.1) (hshown : ∃ item ∈ items, item.1.positions ≠ []) :
      Ends items title (.ok ()) (pictured items ++ (around title ++ [.call saving, .call closing]))

/-- What is done for labelled histories on a figure that is open. -/
theorem ends_drawAll (hrank : ∀ item ∈ items, ∀ x ∈ item.1.positions, x.rank = 1) (title : Value) :
    ∃ r rest, Ends items title r rest ∧
      Draw.Consists (drawAll items >>= fun _ =>
        if (shown items).isEmpty then Draw.close else finishPaths title) rest r := by
  -- The histories before the first one that is not planar are drawn, those behind it are never looked at.
  rcases hfind : items.find? fun item => ¬ IsPlanar item.1 with _ | item
  · have hplanar : ∀ item ∈ items, IsPlanar item.1 := by simpa using hfind
    have hall : Draw.Consists (drawAll items) (pictured items) (.ok ()) := by
      have hnone : Draw.Consists (drawAll []) [] (.ok ()) := .pure ()
      have h := consists_drawAll_append hrank hplanar hnone
      rwa [List.append_nil, List.append_nil] at h
    rcases hshown : shown items with _ | ⟨first, rest⟩
    · exact ⟨_, _, .blank (by simpa using List.filter_eq_nil_iff.mp hshown), hall.bind (.act (.call closing))⟩
    · have hfirst : first ∈ shown items := hshown ▸ List.mem_cons_self ..
      obtain ⟨hmem, hne⟩ := List.mem_filter.mp hfirst
      exact ⟨_, _, .drawn hplanar ⟨first, hmem, by simpa using hne⟩, hall.bind (consists_finishPaths title)⟩
  · obtain ⟨hitem, before, after, rfl, hbefore⟩ := List.find?_eq_some_iff_append.mp hfind
    have hplanar : ∀ b ∈ before, IsPlanar b.1 := by simpa using hbefore
    have hitem : ¬ IsPlanar item.1 := by simpa using hitem
    have hne : item.1.positions ≠ [] := fun hnil => hitem fun x hx => by simp [hnil] at hx
    rw [List.forall_mem_append, List.forall_mem_cons] at hrank
    obtain ⟨hrankBefore, hrankItem, -⟩ := hrank
    have hdraw : ∀ {e rest}, Draw.Consists (path (.ok item.2) item.1.positions) rest (.error e) →
        Draw.Consists (drawAll (before ++ item :: after)) (pictured before ++ rest) (.error e) := by
      intro e rest h
      refine consists_drawAll_append hrankBefore hplanar ?_
      rw [drawAll_cons_of_ne_nil hne]
      exact h.bind_error
    by_cases huniform : IsUniform item.1
    · obtain ⟨n, hsize⟩ := huniform
      have hn : n ≠ 2 := by
        rintro rfl
        exact hitem hsize
      exact ⟨_, _, .unplanar rfl hplanar hitem hsize,
        (hdraw (consists_path_of_size hrankItem hne hn hsize _)).bind_error⟩
    · have htorn := hdraw (consists_path_of_sizes hrankItem huniform _)
      rw [List.append_nil] at htorn
      exact ⟨_, _, .torn rfl hplanar huniform, htorn.bind_error⟩

end Histories

/-! ## Paths -/

section Paths

variable {histories : List (History Float)} {labels : Value} {names : List Value}

/-- Histories with their labels, by their numbers. -/
theorem zip_map_range (histories : List (History Float)) (name : Nat → Value) :
    histories.zip ((List.range histories.length).map name) = histories.zipIdx.map fun (h, i) => (h, name i) := by
  rw [List.zip_map_right, List.range_eq_range', ← List.zipIdx_eq_zip_range']
  rfl

/-- Labels that fit are given to the histories, the figure is opened, and the histories are drawn. -/
theorem consists_paths (hplaces : ∀ fields, labels ≠ .object fields)
    (hnames : labels? histories.length labels = some names) {title : Value} {rest : List Action}
    {r : Except Failure Unit}
    (h : Draw.Consists (drawAll (histories.zip names) >>= fun _ =>
      if (shown (histories.zip names)).isEmpty then Draw.close else finishPaths title) rest r) :
    Draw.Consists (paths histories labels title) (beginning ++ rest) r := by
  obtain ⟨hcheck, name, hname, rfl⟩ := exists_name hplaces hnames
  -- The number of a history counts the ones without positions, so it is given before these are left out.
  have hlabel : labelOf labels = fun i => .ok (name i) := funext hname
  have hshown : shown (histories.zip ((List.range histories.length).map name))
      = (histories.zipIdx.filter fun item => !item.1.positions.isEmpty).map fun item =>
          (item.1, name item.2) := by
    rw [zip_map_range, shown, List.filter_map]
    rfl
  have hdraw : drawAll (histories.zip ((List.range histories.length).map name))
      = (histories.zipIdx.filter fun item => !item.1.positions.isEmpty).forM fun item =>
          path (.ok (name item.2)) item.1.positions := by
    rw [drawAll, hshown, List.forM_eq_forM, List.forM_map]
    rfl
  rw [hdraw, hshown, List.isEmpty_map] at h
  rw [paths, hcheck, hlabel]
  have hlabels : Draw.Consists (liftM (.ok () : Except Failure Unit)) [] (.ok ()) := .lift _
  exact hlabels.bind <| (Draw.Consists.act .locate).bind <| (Draw.Consists.act (.call opening)).bind h

/-- The paths of histories whose labels fit are drawn in one of four ways. -/
theorem ends_paths (hrank : ∀ h ∈ histories, ∀ x ∈ h.positions, x.rank = 1)
    (hplaces : ∀ fields, labels ≠ .object fields)
    (hnames : labels? histories.length labels = some names) (title : Value) :
    ∃ r rest, Ends (histories.zip names) title r rest ∧
      Draw.Consists (paths histories labels title) (beginning ++ rest) r := by
  have hrankItems : ∀ item ∈ histories.zip names, ∀ x ∈ item.1.positions, x.rank = 1 := fun item hitem =>
    hrank item.1 (List.of_mem_zip hitem).1
  obtain ⟨r, rest, hends, hdrawn⟩ := ends_drawAll hrankItems title
  exact ⟨r, rest, hends, consists_paths hplaces hnames hdrawn⟩

/-- With labels that do not fit nothing is done at all. -/
theorem paths_refused (h : labels? histories.length labels = none) (title : Value) :
    ∃ e, Draw.Consists (paths histories labels title) [] (.error e) := by
  obtain ⟨e, he⟩ := exists_error h
  refine ⟨e, ?_⟩
  rw [paths, he]
  exact .bind_error (.lift (.error e))

end Paths

end Minimization.Chart
