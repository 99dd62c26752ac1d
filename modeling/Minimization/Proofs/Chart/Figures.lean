import Minimization.Proofs.Chart.Paths

/-!
# Figures that are closed again

The paths of histories open one figure, before the histories are looked at. If nothing is refused, whether it
is closed again is read off what is done then (`Ends.closed_or_open`): the last thing done is to close it, but
in one case. If the first history that is not planar has positions of different lengths, stacking them fails,
and the figure stays open. That the picture is saved means that all histories with positions are in it
(`Ends.unsaved_or_saved`).

Nothing closes the figure after a refusal either, since closing it is always the last thing to do
(`Ends.calls_cut`). So a refusal leaves the figure open, unless it comes before there is one.

Main result: `paths_closes_iff`.
-/

namespace Minimization.Chart

/-- The calls of some actions in a drawing. -/
def Drawing.calls (d : Drawing) (actions : List String) : List Stroke :=
  d.strokes.filter fun s => s.action ∈ actions

/-! ## Calls on a figure -/

section Calls

variable {items : List (History Float × Value)} {names : List String} {done todo : List Action}

theorem calls_append (done todo : List Action) (names : List String) :
    (⟨done ++ todo⟩ : Drawing).calls names
      = (⟨done⟩ : Drawing).calls names ++ (⟨todo⟩ : Drawing).calls names := by
  rw [Drawing.calls, Drawing.strokes, List.filterMap_append, List.filter_append]
  rfl

/-- What is cut off has no calls that were not there. -/
theorem calls_prefix (h : done <+: todo) :
    (⟨done⟩ : Drawing).calls names <+: (⟨todo⟩ : Drawing).calls names := by
  obtain ⟨rest, rfl⟩ := h
  rw [calls_append]
  exact List.prefix_append _ _

theorem calls_eq_nil_of_prefix (h : done <+: todo) (hnone : (⟨todo⟩ : Drawing).calls names = []) :
    (⟨done⟩ : Drawing).calls names = [] :=
  List.prefix_nil.mp (hnone ▸ calls_prefix h)

/-- The pictures are lines and crosses and nothing else. -/
theorem action_of_mem_pictures {s : Stroke} (h : s ∈ pictures items) : s.action ∈ ["plot", "scatter"] := by
  obtain ⟨item, -, hs⟩ := List.mem_flatMap.mp h
  rcases List.mem_cons.mp hs with rfl | hs
  · exact List.mem_cons_self ..
  · obtain rfl := List.mem_singleton.mp hs
    exact List.mem_cons_of_mem _ (List.mem_cons_self ..)

theorem strokes_pictured (items : List (History Float × Value)) :
    (⟨pictured items⟩ : Drawing).strokes = pictures items := by
  rw [Drawing.strokes, pictured, List.filterMap_map]
  exact List.filterMap_some

theorem calls_pictured (h : ∀ name ∈ ["plot", "scatter"], name ∉ names) :
    (⟨pictured items⟩ : Drawing).calls names = [] := by
  rw [Drawing.calls, strokes_pictured]
  exact List.filter_eq_nil_iff.mpr fun s hs hmem =>
    h s.action (action_of_mem_pictures hs) (of_decide_eq_true hmem)

theorem calls_pictured_pictures :
    (⟨pictured items⟩ : Drawing).calls ["plot", "scatter"] = pictures items := by
  rw [Drawing.calls, strokes_pictured]
  exact List.filter_eq_self.mpr fun s hs => decide_eq_true (action_of_mem_pictures hs)

/-- Around the paths nothing is drawn, opened, saved or closed. -/
theorem calls_around (title : Value) {names : List String}
    (h : names ∈ [["figure"], ["close"], ["savefig"], ["plot", "scatter"]]) :
    (⟨around title⟩ : Drawing).calls names = [] := by
  unfold around
  simp only [List.mem_cons, List.not_mem_nil, or_false] at h
  rcases h with rfl | rfl | rfl | rfl
  all_goals split <;> rfl

end Calls

/-! ## What is done -/

namespace Ends

variable {items before after : List (History Float × Value)} {item : History Float × Value} {title : Value}
  {r : Except Failure Unit} {rest : List Action}

/-- Nothing fails if and only if every history is planar. -/
theorem ok_iff (h : Ends items title r rest) : r = .ok () ↔ ∀ h ∈ items.map Prod.fst, IsPlanar h := by
  rw [List.forall_mem_map]
  cases h with
  | torn heq hplanar hitem =>
    subst heq
    exact iff_of_false nofun fun hall => hitem ⟨2, hall _ (by simp)⟩
  | unplanar heq hplanar hitem hsize =>
    subst heq
    exact iff_of_false nofun fun hall => hitem (hall _ (by simp))
  | blank hblank => exact iff_of_true rfl fun item hitem x hx => by simp [hblank item hitem] at hx
  | drawn hplanar hshown => exact iff_of_true rfl hplanar

theorem find?_eq_some (heq : items = before ++ item :: after) (hplanar : ∀ b ∈ before, IsPlanar b.1)
    (h : ¬ IsPlanar item.1) : (items.map Prod.fst).find? (fun h => ¬ IsPlanar h) = some item.1 := by
  subst heq
  rw [List.find?_map]
  refine Option.map_eq_some_iff.mpr ⟨item, List.find?_eq_some_iff_append.mpr ?_, rfl⟩
  exact ⟨by simpa using h, before, after, rfl, by simpa using hplanar⟩

/-- There is one figure. -/
theorem calls_figure (h : Ends items title r rest) :
    (⟨beginning ++ rest⟩ : Drawing).calls ["figure"] = [opening] := by
  have hpictured (items : List (History Float × Value)) :
      (⟨pictured items⟩ : Drawing).calls ["figure"] = [] := calls_pictured (by decide)
  have hbeginning : (⟨beginning⟩ : Drawing).calls ["figure"] = [opening] := rfl
  have haround : (⟨around title⟩ : Drawing).calls ["figure"] = [] := calls_around title (by decide)
  cases h <;> simp only [calls_append, hbeginning, hpictured, haround] <;> rfl

/-- To close the figure is the last thing done, unless the first history that is not planar has positions of
different lengths: then the figure is not closed at all. -/
theorem closed_or_open (h : Ends items title r rest) :
    ((∃ front, rest = front ++ [.call closing] ∧ (⟨beginning ++ front⟩ : Drawing).calls ["close"] = []) ∧
      ∀ h, (items.map Prod.fst).find? (fun h => ¬ IsPlanar h) = some h → IsUniform h) ∨
    ((⟨beginning ++ rest⟩ : Drawing).calls ["close"] = [] ∧ r = .error .incompatibleShapes ∧
      ∃ h, (items.map Prod.fst).find? (fun h => ¬ IsPlanar h) = some h ∧ ¬ IsUniform h) := by
  have hpictured (items : List (History Float × Value)) :
      (⟨beginning ++ pictured items⟩ : Drawing).calls ["close"] = [] := by
    rw [calls_append, calls_pictured (by decide)]
    rfl
  cases h with
  | torn heq hplanar hitem =>
    exact .inr ⟨hpictured _, rfl, _, find?_eq_some heq hplanar fun h => hitem ⟨2, h⟩, hitem⟩
  | unplanar heq hplanar hitem hsize =>
    refine .inl ⟨⟨_, rfl, hpictured _⟩, fun other hother => ?_⟩
    obtain rfl := Option.some.inj ((find?_eq_some heq hplanar hitem).symm.trans hother)
    exact ⟨_, hsize⟩
  | blank hblank =>
    refine .inl ⟨⟨_, rfl, hpictured _⟩, fun other hother => ⟨0, ?_⟩⟩
    obtain ⟨item, hitem, rfl⟩ := List.mem_map.mp (List.mem_of_find?_eq_some hother)
    rw [hblank item hitem]
    exact nofun
  | drawn hplanar hshown =>
    refine .inl ⟨⟨pictured items ++ (around title ++ [.call saving]), by simp, ?_⟩, fun other hother => ⟨2, ?_⟩⟩
    · rw [← List.append_assoc, calls_append, hpictured, calls_append, calls_around title (by decide)]
      rfl
    · obtain ⟨item, hitem, rfl⟩ := List.mem_map.mp (List.mem_of_find?_eq_some hother)
      exact hplanar item hitem

/-- To save the picture is the last thing but one if there is something to draw and nothing fails, and then all
of it is drawn before. -/
theorem unsaved_or_saved (h : Ends items title r rest) :
    (⟨beginning ++ rest⟩ : Drawing).calls ["savefig"] = [] ∧
        ¬ (r = .ok () ∧ ∃ h ∈ items.map Prod.fst, h.positions ≠ []) ∨
      ∃ front, rest = front ++ [.call saving, .call closing] ∧
        (⟨beginning ++ front⟩ : Drawing).calls ["savefig"] = [] ∧
        (⟨beginning ++ front⟩ : Drawing).calls ["plot", "scatter"] = pictures items ∧
        r = .ok () ∧ ∃ h ∈ items.map Prod.fst, h.positions ≠ [] := by
  have hpictured (items : List (History Float × Value)) :
      (⟨beginning ++ pictured items⟩ : Drawing).calls ["savefig"] = [] := by
    rw [calls_append, calls_pictured (by decide)]
    rfl
  have hclosed (items : List (History Float × Value)) :
      (⟨beginning ++ (pictured items ++ [.call closing])⟩ : Drawing).calls ["savefig"] = [] := by
    rw [← List.append_assoc, calls_append, hpictured]
    rfl
  cases h with
  | torn heq hplanar hitem => exact .inl ⟨hpictured _, fun h => (nomatch h.1)⟩
  | unplanar heq hplanar hitem hsize => exact .inl ⟨hclosed _, fun h => (nomatch h.1)⟩
  | blank hblank =>
    refine .inl ⟨hclosed _, fun ⟨_, h, hh, hne⟩ => ?_⟩
    obtain ⟨item, hitem, rfl⟩ := List.mem_map.mp hh
    exact hne (hblank item hitem)
  | drawn hplanar hshown =>
    obtain ⟨item, hitem, hne⟩ := hshown
    refine .inr ⟨pictured items ++ around title, by simp, ?_, ?_, rfl, item.1,
      List.mem_map_of_mem hitem, hne⟩
    · rw [← List.append_assoc, calls_append, hpictured, calls_around title (by decide)]
      rfl
    · rw [calls_append, calls_append, calls_pictured_pictures, calls_around title (by decide)]
      exact List.append_nil _

end Ends

/-! ## What is done before a refusal -/

/-- What comes before some action comes before the last one. -/
theorem prefix_of_concat_eq {front done after : List Action} {a last : Action}
    (h : front ++ [last] = done ++ a :: after) : done <+: front := by
  have hprefix : done <+: front ++ [last] := h ▸ List.prefix_append _ _
  refine (List.prefix_concat_iff.mp hprefix).resolve_left fun hall => ?_
  have hlength := congrArg List.length h
  rw [← hall, List.length_append, List.length_cons] at hlength
  omega

namespace Ends

variable {items : List (History Float × Value)} {title : Value} {r : Except Failure Unit}
  {rest done after : List Action} {a : Action}

/-- Before a refusal the figure is not closed. The picture can be saved before one, but only if it is closing the
figure that is refused. -/
theorem calls_cut (h : Ends items title r rest) (heq : beginning ++ rest = done ++ a :: after) :
    (⟨done⟩ : Drawing).calls ["close"] = [] ∧
    ((⟨done⟩ : Drawing).calls ["savefig"] ≠ [] ↔
      (r = .ok () ∧ ∃ h ∈ items.map Prod.fst, h.positions ≠ []) ∧
        beginning ++ rest = done ++ [.call closing]) ∧
    ((⟨done⟩ : Drawing).calls ["savefig"] ≠ [] →
      (⟨done⟩ : Drawing).calls ["plot", "scatter"] = pictures items) := by
  have hdone : done <+: beginning ++ rest := heq ▸ List.prefix_append _ _
  refine ⟨?_, ?_⟩
  · rcases h.closed_or_open with ⟨⟨front, rfl, hnone⟩, -⟩ | ⟨hnone, -⟩
    · rw [← List.append_assoc] at heq
      exact calls_eq_nil_of_prefix (prefix_of_concat_eq heq) hnone
    · exact calls_eq_nil_of_prefix hdone hnone
  rcases h.unsaved_or_saved with ⟨hnone, hnot⟩ | ⟨front, rfl, hnone, hpictures, hr⟩
  · have hunsaved := calls_eq_nil_of_prefix hdone hnone
    exact ⟨iff_of_false (fun hsave => hsave hunsaved) fun h => hnot h.1, fun hsave => absurd hunsaved hsave⟩
  -- Everything up to the call that saves the picture, with that call.
  have hfront : beginning ++ (front ++ [.call saving, .call closing])
      = beginning ++ front ++ [.call saving] ++ [.call closing] := by simp
  have hsaved : (⟨beginning ++ front ++ [.call saving]⟩ : Drawing).calls ["savefig"] = [saving] := by
    rw [calls_append, hnone]
    rfl
  have hbefore := hfront.symm.trans heq
  rcases List.prefix_concat_iff.mp (prefix_of_concat_eq hbefore) with rfl | hfirst
  · refine ⟨iff_of_true ?_ ⟨hr, hfront⟩, fun _ => ?_⟩
    · rw [hsaved]
      exact List.cons_ne_nil _ _
    · rw [calls_append, hpictures]
      exact List.append_nil _
  · have hunsaved := calls_eq_nil_of_prefix hfirst hnone
    refine ⟨iff_of_false (fun hsave => hsave hunsaved) fun ⟨_, hlast⟩ => ?_, fun hsave => absurd hunsaved hsave⟩
    obtain ⟨rfl, -⟩ := List.append_inj' (hfront.symm.trans hlast) rfl
    exact List.cons_ne_nil _ _ (hsaved.symm.trans hunsaved)

/-- If nothing is refused the figure is closed, unless the histories cannot be stacked. -/
theorem calls_done (h : Ends items title r rest) :
    ((⟨beginning ++ rest⟩ : Drawing).calls ["close"] = [closing] ∧
      ∀ h, (items.map Prod.fst).find? (fun h => ¬ IsPlanar h) = some h → IsUniform h) ∨
    ((⟨beginning ++ rest⟩ : Drawing).calls ["close"] = [] ∧ r = .error .incompatibleShapes ∧
      ∃ h, (items.map Prod.fst).find? (fun h => ¬ IsPlanar h) = some h ∧ ¬ IsUniform h) := by
  refine h.closed_or_open.imp_left fun ⟨⟨front, hrest, hnone⟩, hall⟩ => ⟨?_, hall⟩
  rw [hrest, ← List.append_assoc, calls_append, hnone]
  rfl

/-- If nothing is refused the picture is saved if nothing fails and there is something to draw, and then all of
it is drawn. -/
theorem saved_done (h : Ends items title r rest) :
    ((⟨beginning ++ rest⟩ : Drawing).calls ["savefig"] ≠ [] ↔
      r = .ok () ∧ ∃ h ∈ items.map Prod.fst, h.positions ≠ []) ∧
    ((⟨beginning ++ rest⟩ : Drawing).calls ["savefig"] ≠ [] →
      (⟨beginning ++ rest⟩ : Drawing).calls ["plot", "scatter"] = pictures items) := by
  rcases h.unsaved_or_saved with ⟨hnone, hnot⟩ | ⟨front, rfl, hnone, hpictures, hr⟩
  · exact ⟨iff_of_false (fun hsave => hsave hnone) hnot, fun hsave => absurd hnone hsave⟩
  · rw [← List.append_assoc, calls_append, hnone, calls_append, hpictures]
    exact ⟨iff_of_true (List.cons_ne_nil _ _) hr, fun _ => List.append_nil _⟩

end Ends

/-! ## Paths -/

/-- The figure is opened unless that is refused, or something is before. -/
theorem calls_figure_cut {s : Surface} {rest done after : List Action} {a : Action} {e : Failure}
    (hfigure : (⟨beginning ++ rest⟩ : Drawing).calls ["figure"] = [opening])
    (heq : beginning ++ rest = done ++ a :: after) (hgrants : s.Grants [] done)
    (ha : s.answer done a = .error e) :
    (⟨done⟩ : Drawing).calls ["figure"] = [] ∧ ¬ s.Grants [] beginning ∨
      (⟨done⟩ : Drawing).calls ["figure"] = [opening] ∧ s.Grants [] beginning := by
  have hnext : done ++ [a] <+: beginning ++ rest :=
    ⟨after, by rw [heq, List.append_assoc, List.singleton_append]⟩
  rcases List.prefix_or_prefix_of_prefix hnext (List.prefix_append beginning rest) with hcut | hcut
  · refine .inl ⟨?_, Surface.not_grants hcut ha⟩
    -- Before the figure is opened only the path of the picture is found out.
    have hlocate : done <+: [.locate] := by
      rcases List.prefix_concat_iff.mp (show done ++ [a] <+: [.locate] ++ [.call opening] from hcut) with
        hall | hfirst
      · exact (List.append_inj' hall rfl).1 ▸ List.prefix_rfl
      · exact (List.prefix_append done [a]).trans hfirst
    exact calls_eq_nil_of_prefix hlocate rfl
  · rcases List.prefix_concat_iff.mp hcut with hall | hbeginning
    · exact .inl ⟨by
        obtain ⟨rfl, -⟩ := List.append_inj' (show [Action.locate] ++ [.call opening] = _ from hall) rfl
        rfl, Surface.not_grants (hall ▸ List.prefix_rfl) ha⟩
    · refine .inr ⟨?_, hgrants.of_prefix hbeginning⟩
      have hdone : done <+: beginning ++ rest := (List.prefix_append done [a]).trans hnext
      have hlower : (⟨beginning⟩ : Drawing).calls ["figure"] <+: _ := calls_prefix hbeginning
      have hupper : (⟨done⟩ : Drawing).calls ["figure"] <+: [opening] := hfigure ▸ calls_prefix hdone
      exact hupper.eq_of_length_le hlower.length_le

/-- The paths of histories of vectors, on any surface. Nothing fails if the labels fit, all histories are planar
and nothing is refused. As many figures are closed as are opened if there is no figure, because the labels do not
fit or the beginning is refused, or else if nothing is refused and the first history that is not planar, if there
is one, has positions of one length. Otherwise the one figure that was opened stays open: the positions cannot be
stacked, or something was refused, be it the directory, a title, the layout or the file. The picture is saved if
nothing failed and there was something to draw, or if nothing but closing the figure was refused; and then there
is a line and a cross for every history with positions, in their order and with their labels. -/
theorem paths_closes_iff (surface : Surface) {histories : List (History Float)}
    (hrank : ∀ h ∈ histories, ∀ x ∈ h.positions, x.rank = 1) {labels : Value}
    (hplaces : ∀ fields, labels ≠ .object fields) (title : Value) :
    let todo := (paths histories labels title).onEmpty.2.actions
    ∃ r d, (paths histories labels title).on surface = (r, d) ∧
      (r = .ok () ↔ labels? histories.length labels ≠ none ∧ (∀ h ∈ histories, IsPlanar h) ∧
        surface.Grants [] todo) ∧
      ((d.calls ["figure"]).length = (d.calls ["close"]).length ↔
        labels? histories.length labels = none ∨ ¬ surface.Grants [] beginning ∨
          surface.Grants [] todo ∧ ∀ h, histories.find? (fun h => ¬ IsPlanar h) = some h → IsUniform h) ∧
      ((d.calls ["figure"]).length ≠ (d.calls ["close"]).length →
        d.calls ["figure"] = [opening] ∧ d.calls ["close"] = [] ∧
          (surface.Grants [] todo ∧ r = .error .incompatibleShapes ∨
            ∃ a e, d.actions ++ [a] <+: todo ∧ surface.answer d.actions a = .error e ∧ r = .error e)) ∧
      (d.calls ["savefig"] ≠ [] ↔ (∃ h ∈ histories, h.positions ≠ []) ∧
        (r = .ok () ∨ labels? histories.length labels ≠ none ∧ (∀ h ∈ histories, IsPlanar h) ∧
          todo = d.actions ++ [.call closing])) ∧
      (d.calls ["savefig"] ≠ [] → ∃ names, labels? histories.length labels = some names ∧
        names.length = histories.length ∧ d.calls ["plot", "scatter"] = pictures (histories.zip names)) := by
  intro todo
  rcases hlabels : labels? histories.length labels with _ | names
  · -- Labels that do not fit are refused before anything is done.
    obtain ⟨e, hconsists⟩ := paths_refused hlabels title
    have hrun : (paths histories labels title).on surface = (.error e, ⟨[]⟩) := by
      rcases hconsists.on_cases surface with ⟨-, hall⟩ | ⟨_, _, _, _, heq, -⟩
      · exact hall
      · cases List.append_eq_nil_iff.mp heq.symm |>.2
    exact ⟨_, _, hrun, iff_of_false nofun fun h => h.1 rfl, iff_of_true rfl (.inl rfl), fun h => absurd rfl h,
      iff_of_false (fun h => h rfl) (fun h => h.2.elim nofun fun h => h.1 rfl), fun h => absurd rfl h⟩
  obtain ⟨r, rest, hends, hconsists⟩ := ends_paths hrank hplaces hlabels title
  have htodo : todo = beginning ++ rest := congrArg (·.2.actions) hconsists.onEmpty_eq
  have hlength := length_of_labels? hplaces hlabels
  have hfst : (histories.zip names).map Prod.fst = histories := List.map_fst_zip (Nat.le_of_eq hlength.symm)
  have hok := hends.ok_iff
  have hfigure := hends.calls_figure
  rw [hfst] at hok
  rw [htodo]
  rcases hconsists.on_cases surface with ⟨hgrants, hrun⟩ | ⟨done, a, after, e, heq, hdone, ha, hrun⟩
  · have hclosed := hends.calls_done
    have hsaved := hends.saved_done
    rw [hfst] at hclosed hsaved
    have hbeginning := hgrants.of_prefix (List.prefix_append beginning rest)
    refine ⟨_, _, hrun, ?_, ?_, fun hopen => ?_, ?_, fun hsave => ⟨names, rfl, hlength, hsaved.2 hsave⟩⟩
    · exact hok.trans ⟨fun h => ⟨Option.some_ne_none _, h, hgrants⟩, fun h => h.2.1⟩
    · rcases hclosed with ⟨hclose, hall⟩ | ⟨hclose, -, h, hfirst, hh⟩
      · rw [hfigure, hclose]
        exact iff_of_true rfl (.inr (.inr ⟨hgrants, hall⟩))
      · rw [hfigure, hclose]
        refine iff_of_false nofun fun hor => ?_
        rcases hor with hlabels | hbegin | ⟨-, hall⟩
        · cases hlabels
        · exact hbegin hbeginning
        · exact hh (hall h hfirst)
    · rcases hclosed with ⟨hclose, -⟩ | ⟨hclose, hr, -⟩
      · rw [hfigure, hclose] at hopen
        exact absurd rfl hopen
      · exact ⟨hfigure, hclose, .inl ⟨hgrants, hr⟩⟩
    · refine hsaved.1.trans ⟨fun h => ⟨h.2, .inl h.1⟩, fun h => ⟨h.2.resolve_right fun hcut => ?_, h.1⟩⟩
      exact List.cons_ne_nil _ _ (List.self_eq_append_right.mp hcut.2.2)
  · obtain ⟨hclose, hsaved, hpictures⟩ := hends.calls_cut heq
    rw [hfst] at hsaved
    have hnext : done ++ [a] <+: beginning ++ rest :=
      ⟨after, by rw [heq, List.append_assoc, List.singleton_append]⟩
    have hrefused : ¬ surface.Grants [] (beginning ++ rest) := Surface.not_grants hnext ha
    have hopened := calls_figure_cut hfigure heq hdone ha
    refine ⟨_, _, hrun, iff_of_false nofun fun h => hrefused h.2.2, ?_, fun hopen => ?_, ?_,
      fun hsave => ⟨names, rfl, hlength, hpictures hsave⟩⟩
    · rcases hopened with ⟨hnone, hbegin⟩ | ⟨hone, hbegin⟩
      · rw [hnone, hclose]
        exact iff_of_true rfl (.inr (.inl hbegin))
      · rw [hone, hclose]
        refine iff_of_false nofun fun hor => ?_
        rcases hor with hlabels | hnot | ⟨hgrants, -⟩
        · cases hlabels
        · exact hnot hbegin
        · exact hrefused hgrants
    · rcases hopened with ⟨hnone, -⟩ | ⟨hone, -⟩
      · rw [hnone, hclose] at hopen
        exact absurd rfl hopen
      · exact ⟨hone, hclose, .inr ⟨a, e, hnext, ha, rfl⟩⟩
    · rw [hsaved, hok]
      exact ⟨fun h => ⟨h.1.2, .inr ⟨Option.some_ne_none _, h.1.1, h.2⟩⟩,
        fun h => ⟨⟨(h.2.resolve_left nofun).2.1, h.1⟩, (h.2.resolve_left nofun).2.2⟩⟩

/-- Two histories with paths, and one between them that is skipped with its label. On a surface that refuses
nothing their picture is saved; on one that does not make its directory, the figure stays open. -/
theorem paths_closes_iff_three :
    let a : Tensor Float := ⟨[2], [0.0, 0.0], .double, rfl⟩
    let b : Tensor Float := ⟨[2], [1.0, 2.0], .double, rfl⟩
    let histories : List (History Float) := [⟨[a, b], [], [], []⟩, ⟨[], [], [], []⟩, ⟨[b], [], [], []⟩]
    let labels : Value := .list [.text "a", .text "b", .text "c"]
    let readOnly : Surface := ⟨fun _ a => match a with
      | .makeDirectory => .error .noFile
      | _ => .ok ()⟩
    (∀ h ∈ histories, ∀ x ∈ h.positions, x.rank = 1) ∧ (∀ fields, labels ≠ .object fields) ∧
      (∃ r d, (paths histories labels (.text "paths")).onEmpty = (r, d) ∧ r = .ok () ∧
        (d.calls ["figure"]).length = (d.calls ["close"]).length ∧ d.calls ["savefig"] ≠ [] ∧
        d.calls ["plot", "scatter"]
          = [line (.text "a") [a, b], cross [a, b], line (.text "c") [b], cross [b]]) ∧
      ∃ r d, (paths histories labels (.text "paths")).on readOnly = (r, d) ∧ r ≠ .ok () ∧
        (d.calls ["figure"]).length ≠ (d.calls ["close"]).length ∧ d.calls ["savefig"] = [] := by
  intro a b histories labels readOnly
  have hrank : ∀ h ∈ histories, ∀ x ∈ h.positions, x.rank = 1 := by
    simp [histories, a, b, Tensor.rank]
  have hplaces : ∀ fields, labels ≠ .object fields := nofun
  have hplanar : ∀ h ∈ histories, IsPlanar h := by decide
  refine ⟨hrank, hplaces, ?_, ?_⟩
  · obtain ⟨r, d, hrun, hr, hclose, -, hsave, hdrawn⟩ :=
      paths_closes_iff Surface.willing hrank hplaces (.text "paths")
    have hgrants (todo : List Action) : Surface.willing.Grants [] todo := fun _ _ _ => rfl
    have hok : r = .ok () := hr.mpr ⟨Option.some_ne_none _, hplanar, hgrants _⟩
    have hsaved : d.calls ["savefig"] ≠ [] :=
      hsave.mpr ⟨⟨_, List.mem_cons_self .., List.cons_ne_nil _ _⟩, .inl hok⟩
    obtain ⟨names, hnames, -, hpictures⟩ := hdrawn hsaved
    obtain rfl := Option.some.inj hnames
    refine ⟨r, d, hrun, hok, hclose.mpr (.inr (.inr ⟨hgrants _, fun h hfirst => ?_⟩)), hsaved, hpictures⟩
    exact ⟨2, hplanar h (List.mem_of_find?_eq_some hfirst)⟩
  · obtain ⟨r, d, hrun, -, hclose, -⟩ := paths_closes_iff readOnly hrank hplaces (.text "paths")
    -- The directory is made after the paths have been drawn.
    have hdirectory : beginning ++ pictured (histories.zip [.text "a", .text "b", .text "c"])
        ++ [.makeDirectory] <+: (paths histories labels (.text "paths")).onEmpty.2.actions := ⟨_, rfl⟩
    have hrefused := Surface.not_grants hdirectory
      (show readOnly.answer _ .makeDirectory = .error .noFile from rfl)
    have hbegin : readOnly.Grants [] beginning := by
      intro before action hbefore
      have hmem : action ∈ beginning := hbefore.subset (by simp)
      rcases List.mem_cons.mp hmem with rfl | hmem
      · rfl
      · obtain rfl := List.mem_singleton.mp hmem
        rfl
    have hcut : (paths histories labels (.text "paths")).on readOnly = (.error .noFile,
        ⟨beginning ++ pictured (histories.zip [.text "a", .text "b", .text "c"])⟩) := rfl
    obtain ⟨rfl, rfl⟩ := Prod.mk.inj (hcut.symm.trans hrun)
    refine ⟨_, _, hrun, nofun, fun heq => ?_, rfl⟩
    rcases hclose.mp heq with hlabels | hnot | ⟨hgrants, -⟩
    · cases hlabels
    · exact hnot hbegin
    · exact hrefused hgrants

/-- A position in the plane and one on the line: the figure is opened and nobody closes it. -/
theorem paths_leaves_open :
    let h : History Float := ⟨[⟨[2], [0.0, 0.0], .double, rfl⟩, ⟨[1], [1.0], .double, rfl⟩], [], [], []⟩
    ∃ d, (paths [h] .null .null).onEmpty = (.error .incompatibleShapes, d) ∧
      d.calls ["figure"] = [opening] ∧ d.calls ["close"] = [] :=
  ⟨_, rfl, rfl, rfl⟩

end Minimization.Chart
