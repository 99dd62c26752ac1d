import Minimization.Descent.Moments
import Minimization.Descent.LineSearch
import Minimization.Proofs.Places

/-!
# Descents with arrays on a desk

An array can be changed by everybody who holds it, and a descent is handed one by its caller. Here the
arrays of a descent stand on a desk, and it holds their places: it begins with a copy of the initial
guess, every step makes new arrays, and what it changes in place are arrays that it has just made. The
functions that it evaluates are handed places as well. They may write to the array that they are handed
while they run, and a function that fails may leave anything there; and what a gradient answers may be an
array that others hold, such as the one that it was handed (`Manners`).

A descent on a desk does what it does with the arrays themselves, and when it fails, every array that was
on the desk before, the initial guess above all, is what it was (`GradientDescent.runAt_simulates`,
`Adam.runAt_simulates`).
-/

namespace Minimization

open Placing

instance {α : Type} : Inhabited (Tensor α) := ⟨⟨[0], [], .double, rfl⟩⟩

/-- How functions treat arrays: what one that fails leaves in the place that it is handed, and which of the
arrays on the desk, if any, is the one that it answers. -/
structure Manners (α : Type) where
  spoiled : Tensor α → Tensor α
  shared : List (Tensor α) → Tensor α → Option Nat
  shared_holds : ∀ {desk t place}, shared desk t = some place → desk[place]? = some t

variable {m : Type → Type} [Monad m] {ω : Type} [Stateful m ω] {α β : Type}

namespace Manners

variable (k : Manners α)

/-- A computation that is handed the array in a place. -/
def hand (place : Nat) (c : Tensor α → ExceptT Failure m β) : Placing (Tensor α) m β := do
  let t ← look place
  tryCatch (beside (c t)) fun e => do
    change place k.spoiled
    throw e

/-- The place of an array that a function answers at the array in a place. -/
def answer (place : Nat) (f : Field m α) : Placing (Tensor α) m Nat := do
  let t ← k.hand place f
  let desk ← getThe (List (Tensor α))
  match k.shared desk t with
  | some shared => return shared
  | none => put t

end Manners

section Simulates

variable {γ δ : Type} {k : Manners α} {kept desk : List (Tensor α)} {place : Nat} {t : Tensor α}
  (hkept : kept <+: desk) (hplace : kept.length ≤ place) (h : desk[place]? = some t)
include hkept hplace h

/-- A function may spoil the array that it is handed only if it fails, and that one is not kept. -/
theorem Simulates.hand (c : Tensor α → ExceptT Failure m β) :
    Simulates kept desk (k.hand place c) (c t) fun later b' b => later = desk ∧ b' = b := by
  refine .look_bind h (.intro (fun {w b v} hc => ?_) fun {w e v} hc => ?_)
  · refine ⟨desk, b, ?_, rfl, rfl⟩
    rw [attempt_tryCatch, Placing.beside, attempt_beside, hc]
  · refine ⟨desk.modify place k.spoiled, ?_, prefix_modify hkept hplace _⟩
    rw [attempt_tryCatch, Placing.beside, attempt_beside, hc]
    exact (attempt_bind_of_ok (attempt_change _ _ _) _).trans (attempt_throw _ _)

/-- A function that is handed an array, in its place or as a copy, does what it does with the array
itself. -/
theorem Simulates.hand_bind {c : Tensor α → ExceptT Failure m δ} {f' : δ → Placing (Tensor α) m γ}
    {f : δ → ExceptT Failure m β} {S : List (Tensor α) → γ → β → Prop}
    (hf : ∀ d, Simulates kept desk (f' d) (f d) S) :
    Simulates kept desk (k.hand place c >>= f') (c t >>= f) S := by
  refine .bind (.hand hkept hplace h c) ?_
  rintro later b' b ⟨rfl, rfl⟩
  exact hf b'

/-- An array that a function answers is found on the desk, whether it was there before or not. -/
theorem Simulates.answer (f : Field m α) :
    Simulates kept desk (k.answer place f) (f t) (Finds desk) := by
  have hhand := Simulates.hand (k := k) hkept hplace h f
  refine .intro (fun {w g v} hf => ?_) fun {w e v} hf => ?_
  · obtain ⟨_, _, hhand, rfl, rfl⟩ := hhand.of_ok hf
    unfold Manners.answer
    rw [attempt_bind_of_ok hhand, attempt_bind_of_ok (attempt_getThe _)]
    dsimp only
    split
    next shared hshared =>
      exact ⟨_, shared, attempt_pure _ _, List.prefix_refl _, k.shared_holds hshared⟩
    next =>
      exact ⟨_, _, attempt_put _ _, List.prefix_append _ _, List.getElem?_concat_length⟩
  · obtain ⟨later, hhand, hlater⟩ := hhand.of_error hf
    exact ⟨later, attempt_bind_of_error hhand _, hlater⟩

end Simulates

/-- The second computation answers what the first one puts on the desk, at every array that is not kept. -/
def Answers (kept : List (Tensor α)) (gradientAt : Nat → Placing (Tensor α) m Nat) (gradient : Field m α) :
    Prop :=
  ∀ {desk x t}, kept <+: desk → kept.length ≤ x → desk[x]? = some t →
    Simulates kept desk (gradientAt x) (gradient t) (Finds desk)

variable [Scalar α] {k : Manners α} {kept desk : List (Tensor α)}
  {gradientAt : Nat → Placing (Tensor α) m Nat}

/-! ## Gradient descent -/

namespace GradientDescent

/-- The step that a line search on a desk ends with. -/
structure TrialAt (α : Type) where
  stepSize : α
  step : Nat
  exhausted : Bool

/-- A trial of a line search, and what follows if it is rejected. -/
def trialAt (s : Setup m α) (k : Manners α) (x step : Nat) (bound a : α)
    (rejected : Placing (Tensor α) (StateT (Run α) m) (TrialAt α)) :
    Placing (Tensor α) (StateT (Run α) m) (TrialAt α) := do
  let there ← put (← (← look x).moveBy (← look step))
  let answer ← k.hand there fun t => Descent.evaluate (s.loss t)
  let value ← answer.operand
  if !Scalar.lt bound value then return ⟨a, step, false⟩
  rejected

/-- A line search on a desk. -/
def searchAt (s : Setup m α) (k : Manners α) (x d : Nat) (bound : α → α) :
    Nat → α → Nat → Placing (Tensor α) (StateT (Run α) m) (TrialAt α)
  | 0, a, step => trialAt s k x step (bound a) a (return ⟨a, step, true⟩)
  | left + 1, a, step => trialAt s k x step (bound a) a do
    let a := a * s.settings.shrinkFactor
    beside (Descent.record (·.addStepSize a))
    let step ← put ((← look d).scale a)
    searchAt s k x d bound left a step

/-- An iteration on a desk. The direction is normalized in its place. -/
def iterationAt (s : Setup m α) (k : Manners α) (gradientAt : Nat → Placing (Tensor α) m Nat) (x : Nat)
    (a : α) : Placing (Tensor α) (StateT (Run α) m) (TrialAt α × Nat) := do
  beside (Descent.evaluate s.before)
  let loss ← k.hand x fun t => Descent.evaluate (s.loss.number t)
  let gradient ← nested (gradientAt x)
  checkGradient (← look gradient) (← look x)
  let d ← put ((← look gradient).scale (-Scalar.one))
  rework d (·.normalizeAbove Tensor.negligible)
  let position ← look x
  let direction ← look d
  beside (Descent.record fun h =>
    (((h.addPosition position.flatten).addLoss loss).addDirection direction.flatten).addStepSize a)
  let slope ← (← look gradient).inner (← look d)
  let bound (a : α) : α := loss + s.settings.sufficientShare * a * slope
  let trial ← searchAt s k x d bound s.settings.maxShrinks.toNat a (← put ((← look d).scale a))
  let next ← put (← (← look x).moveBy (← look trial.step))
  beside (Descent.reporting fun r => { r with stepSize := trial.stepSize })
  return (trial, next)

/-- How a descent on a desk ended. -/
structure EndingAt where
  point : Nat
  reason : StopReason
  steps : Nat
  exhausted : Nat

/-- Iterates on a desk. -/
def iterateAt (s : Setup m α) (k : Manners α) (gradientAt : Nat → Placing (Tensor α) m Nat) :
    Nat → Nat → α → (steps exhausted : Nat) → Placing (Tensor α) (StateT (Run α) m) EndingAt
  | left, x, a, steps, exhausted => do
    let (trial, x) ← iterationAt s k gradientAt x a
    let exhausted := if trial.exhausted then exhausted + 1 else exhausted
    match left with
    | 0 => return ⟨x, .maxIterations, steps + 1, exhausted⟩
    | left + 1 =>
      let step ← look trial.step
      if Scalar.le step.norm s.settings.terminationStep then
        return ⟨x, .smallStep, steps + 1, exhausted⟩
      iterateAt s k gradientAt left x (trial.stepSize * s.settings.growthFactor) (steps + 1) exhausted

/-- A descent on a desk, which begins with a copy of the initial guess. -/
def runAt (s : Setup m α) (k : Manners α) (gradientAt : Nat → Placing (Tensor α) m Nat) (guess : Nat) :
    Placing (Tensor α) (StateT (Run α) m) Nat := do
  let start ← put ((← look guess).convert s.precision)
  let ending ← iterateAt s k gradientAt (s.settings.maxSteps - 1).toNat start s.settings.initialStep 0 0
  beside (Descent.reporting fun r => { r with iterations := ending.steps })
  let loss ← k.hand ending.point fun t => Descent.evaluate (s.loss.number t)
  beside (Descent.reporting fun r => { r with loss })
  let position ← look ending.point
  beside (Descent.record fun h => (h.addPosition position.flatten).addLoss loss)
  if ending.exhausted ≠ 0 then
    beside (Descent.notify (.exhaustedSearches s.settings.maxShrinks ending.exhausted ending.steps))
  beside (Descent.notify (.descentEnded s.name ending.reason ending.steps loss))
  return ending.point

/-- What a line search on a desk has found. -/
def Settles (desk later : List (Tensor α)) (r' : TrialAt α) (r : Trial α) : Prop :=
  desk <+: later ∧ r'.stepSize = r.stepSize ∧ later[r'.step]? = some r.step ∧ r'.exhausted = r.exhausted

/-- A trial puts the point that it moves to into a place of its own. -/
theorem trialAt_simulates {s : Setup m α} {x step : Nat} {tx tstep : Tensor α} {bound a : α}
    {rejected' : Placing (Tensor α) (StateT (Run α) m) (TrialAt α)} {rejected : Descent m α (Trial α)}
    (hkept : kept <+: desk) (hx : desk[x]? = some tx) (hstep : desk[step]? = some tstep)
    (h : ∀ there, Simulates kept (desk ++ [there]) rejected' rejected (Settles desk)) :
    Simulates kept desk (trialAt s k x step bound a rejected')
      (do
        let there ← tx.moveBy tstep
        let answer ← Descent.evaluate (s.loss there)
        let value ← answer.operand
        if !Scalar.lt bound value then return ⟨a, tstep, false⟩
        rejected) (Settles desk) := by
  refine .look_bind hx (.look_bind hstep (.bind_lift hkept fun there _ => .put_bind ?_))
  have hmore : desk <+: desk ++ [there] := List.prefix_append ..
  refine .hand_bind (hkept.trans hmore) hkept.length_le List.getElem?_concat_length fun answer =>
    .bind_lift (hkept.trans hmore) fun value _ => ?_
  split
  · exact .pure ⟨hmore, rfl, getElem?_later hstep hmore, rfl⟩
  · exact h there

/-- A line search leaves the arrays of its trials behind, and none of them is needed again. -/
theorem searchAt_simulates (s : Setup m α) {x d : Nat} {tx td : Tensor α} (bound : α → α) (left : Nat) :
    ∀ {desk a step tstep}, kept <+: desk → desk[x]? = some tx → desk[d]? = some td →
      desk[step]? = some tstep → Simulates kept desk (searchAt s k x d bound left a step)
        (search s tx td bound left a tstep) (Settles desk) := by
  -- By induction on the shrinks that are left, for all arrays that are there by then.
  induction left with
  | zero =>
    intro desk a step tstep hkept hx hd hstep
    unfold searchAt search
    refine trialAt_simulates hkept hx hstep fun there => .pure ?_
    have hmore : desk <+: desk ++ [there] := List.prefix_append ..
    exact ⟨hmore, rfl, getElem?_later hstep hmore, rfl⟩
  | succ left ih =>
    intro desk a step tstep hkept hx hd hstep
    unfold searchAt search
    refine trialAt_simulates hkept hx hstep fun there => ?_
    have hmore : desk <+: desk ++ [there] := List.prefix_append ..
    refine .beside_bind (hkept.trans hmore) fun _ =>
      .look_bind (getElem?_later hd hmore) (.put_bind ?_)
    have hmore' := hmore.trans (List.prefix_append _ [td.scale (a * s.settings.shrinkFactor)])
    exact (ih (hkept.trans hmore') (getElem?_later hx hmore') (getElem?_later hd hmore')
      List.getElem?_concat_length).mono fun later r' r h => ⟨hmore'.trans h.1, h.2⟩

/-- An iteration on a desk leaves its step and the next point there. The point is one of its own. -/
theorem iterationAt_simulates {s : Setup m α} (hg : Answers kept gradientAt s.gradient) {x : Nat}
    {tx : Tensor α} (hkept : kept <+: desk) (hown : kept.length ≤ x) (hx : desk[x]? = some tx) (a : α) :
    Simulates kept desk (iterationAt s k gradientAt x a) (iteration s tx a)
      fun later r' r => Settles desk later r'.1 r.1 ∧ later[r'.2]? = some r.2 ∧ kept.length ≤ r'.2 := by
  refine .beside_bind hkept fun _ => ?_
  refine .hand_bind (c := fun t => Descent.evaluate (s.loss.number t)) hkept hown hx fun loss => ?_
  refine .bind (.nested (hg hkept hown hx)) ?_
  rintro desk₁ g gradient ⟨h₁, hgradient⟩
  replace hx := getElem?_later hx h₁
  refine .look_bind hgradient (.look_bind hx (.bind_lift (hkept.trans h₁) fun _ _ => ?_))
  -- The direction is put on the desk before it is normalized there.
  refine .look_bind hgradient (.put_bind ?_)
  refine .rework_bind (hkept.trans (h₁.trans (List.prefix_append ..))) List.getElem?_concat_length
    fun d => ?_
  rw [modify_concat]
  have h₂ : desk₁ <+: desk₁ ++ [d] := List.prefix_append ..
  have hd : (desk₁ ++ [d])[desk₁.length]? = some d := List.getElem?_concat_length
  replace hx := getElem?_later hx h₂
  replace hgradient := getElem?_later hgradient h₂
  have hkept₂ : kept <+: desk₁ ++ [d] := (hkept.trans h₁).trans h₂
  refine .look_bind hx (.look_bind hd (.beside_bind hkept₂ fun _ => ?_))
  refine .look_bind hgradient (.look_bind hd (.bind_lift hkept₂ fun slope _ => ?_))
  refine .look_bind hd (.put_bind ?_)
  have h₃ : desk₁ ++ [d] <+: desk₁ ++ [d] ++ [d.scale a] := List.prefix_append ..
  refine .bind (searchAt_simulates s _ _ (hkept₂.trans h₃) (getElem?_later hx h₃)
    (getElem?_later hd h₃) List.getElem?_concat_length) ?_
  rintro desk₂ trial' trial ⟨h₄, hsize, hstep, hexhausted⟩
  have hall : desk <+: desk₂ := ((h₁.trans h₂).trans h₃).trans h₄
  refine .look_bind (getElem?_later hx (h₃.trans h₄)) (.look_bind hstep ?_)
  refine .bind_lift (hkept.trans hall) fun next _ => .put_bind ?_
  have h₅ : desk₂ <+: desk₂ ++ [next] := List.prefix_append ..
  rw [hsize]
  refine .beside_bind ((hkept.trans hall).trans h₅) fun _ => .pure ?_
  exact ⟨⟨hall.trans h₅, hsize, getElem?_later hstep h₅, hexhausted⟩, List.getElem?_concat_length,
    (hkept.trans hall).length_le⟩

/-- How a descent on a desk ends. -/
def EndsAt (kept desk later : List (Tensor α)) (r' : EndingAt) (r : Ending α) : Prop :=
  desk <+: later ∧ later[r'.point]? = some r.point ∧ kept.length ≤ r'.point ∧ r'.reason = r.reason ∧
    r'.steps = r.steps ∧ r'.exhausted = r.exhausted

/-- The loop goes from place to place, by induction on the iterations that may follow. -/
theorem iterateAt_simulates {s : Setup m α} (hg : Answers kept gradientAt s.gradient) (left : Nat) :
    ∀ {desk x tx a steps exhausted}, kept <+: desk → kept.length ≤ x → desk[x]? = some tx →
      Simulates kept desk (iterateAt s k gradientAt left x a steps exhausted)
        (iterate s left tx a steps exhausted) (EndsAt kept desk) := by
  -- By induction on the iterations that may follow, for all arrays that are there by then.
  induction left with
  | zero =>
    intro desk x tx a steps exhausted hkept hown hx
    unfold iterateAt iterate
    refine .bind (iterationAt_simulates hg hkept hown hx a) ?_
    rintro later ⟨trial', y'⟩ ⟨trial, y⟩ ⟨⟨hlater, hsize, hstep, hexhausted⟩, hy, hown'⟩
    dsimp only at hsize hstep hexhausted hy hown' ⊢
    rw [hexhausted]
    exact .pure ⟨hlater, hy, hown', rfl, rfl, rfl⟩
  | succ left ih =>
    intro desk x tx a steps exhausted hkept hown hx
    unfold iterateAt iterate
    refine .bind (iterationAt_simulates hg hkept hown hx a) ?_
    rintro later ⟨trial', y'⟩ ⟨trial, y⟩ ⟨⟨hlater, hsize, hstep, hexhausted⟩, hy, hown'⟩
    dsimp only at hsize hstep hexhausted hy hown' ⊢
    rw [hexhausted, hsize]
    refine .look_bind hstep ?_
    split
    · exact .pure ⟨hlater, hy, hown', rfl, rfl, rfl⟩
    · exact (ih (hkept.trans hlater) hown' hy).mono fun _ _ _ h => ⟨hlater.trans h.1, h.2⟩

/-- A descent on a desk does what it does with the arrays themselves, and leaves those that were there. -/
theorem runAt_simulates {s : Setup m α} (hg : Answers kept gradientAt s.gradient) {guess : Nat}
    {t : Tensor α} (hkept : kept <+: desk) (h : desk[guess]? = some t) :
    Simulates kept desk (runAt s k gradientAt guess) (run s t)
      fun later y' y => Finds desk later y' y ∧ kept.length ≤ y' := by
  refine .look_bind h (.put_bind ?_)
  have hstart : desk <+: desk ++ [t.convert s.precision] := List.prefix_append ..
  refine .bind (iterateAt_simulates hg _ (hkept.trans hstart) hkept.length_le
    List.getElem?_concat_length) ?_
  rintro later ⟨y', _, _, _⟩ ⟨y, reason, steps, exhausted⟩ ⟨hlater, hy, hown, rfl, rfl, rfl⟩
  have hall := hstart.trans hlater
  have hkept' := hkept.trans hall
  refine .beside_bind hkept' fun _ => ?_
  refine .hand_bind (c := fun t => Descent.evaluate (s.loss.number t)) hkept' hown hy fun loss => ?_
  refine .beside_bind hkept' fun _ => .look_bind hy (.beside_bind hkept' fun _ => ?_)
  split
  · exact .beside_bind hkept' fun _ => .beside_bind hkept' fun _ => .pure ⟨⟨hall, hy⟩, hown⟩
  · exact .beside_bind hkept' fun _ => .pure ⟨⟨hall, hy⟩, hown⟩

end GradientDescent

/-! ## Moment descent -/

namespace Adam

/-- The step that moments on a desk give. The weights are computed in the place of a copy. -/
def stepAt (p : Precision) (h : Settings α) (first second : Nat) (size : α) :
    Placing (Tensor α) (StateT (Run α) m) Nat := do
  let weights ← put ((← look second).convert p)
  rework weights fun t => t.mapM fun v => return Scalar.round t.precision (← inverseRoot h v)
  let direction ← (← look first).multiply (← look weights)
  put (direction.scale (-size))

/-- The moments on a desk, the length of a step, and the point that it leads to. -/
structure StepAt (α : Type) where
  first : Nat
  second : Nat
  length : α
  point : Nat

/-- An iteration on a desk. -/
def iterationAt (s : Setup m α) (k : Manners α) (gradientAt : Nat → Placing (Tensor α) m Nat) (t x : Nat)
    (first second : Nat) : Placing (Tensor α) (StateT (Run α) m) (StepAt α) := do
  beside (Descent.evaluate s.before)
  let loss ← k.hand x fun t => Descent.evaluate (s.loss.number t)
  let gradient ← nested (gradientAt x)
  checkGradient (← look gradient) (← look x)
  let ms ← Moments.update s.settings ⟨← look first, ← look second⟩ (← look gradient)
  let first ← put ms.first
  let second ← put ms.second
  let size ← correctedStep s.settings t
  let step ← stepAt s.precision s.settings first second size
  let position ← look x
  let direction ← look gradient
  beside (Descent.record fun h =>
    (((h.addPosition position.flatten).addLoss loss).addDirection direction.flatten).addStepSize size)
  let length := (← look step).norm
  let next ← put (← (← look x).moveBy (← look step))
  beside (Descent.reporting fun r => { r with stepSize := length })
  return ⟨first, second, length, next⟩

/-- Iterates on a desk. -/
def iterateAt (s : Setup m α) (k : Manners α) (gradientAt : Nat → Placing (Tensor α) m Nat) :
    Nat → (t : Nat) → (x first second : Nat) → Placing (Tensor α) (StateT (Run α) m) (Nat × Nat)
  | left, t, x, first, second => do
    let r ← iterationAt s k gradientAt t x first second
    match left with
    | 0 => return (t, r.point)
    | left + 1 =>
      if Scalar.le r.length s.settings.terminationStep then return (t, r.point)
      iterateAt s k gradientAt left (t + 1) r.point r.first r.second

/-- A descent on a desk, which begins with a copy of the initial guess. -/
def runAt (s : Setup m α) (k : Manners α) (gradientAt : Nat → Placing (Tensor α) m Nat) (guess : Nat) :
    Placing (Tensor α) (StateT (Run α) m) Nat := do
  let start ← put ((← look guess).convert s.precision)
  let first ← put ((← look start).scale Scalar.zero)
  let second ← put ((← look start).scale Scalar.zero)
  let (steps, x) ← iterateAt s k gradientAt (s.settings.maxSteps - 1).toNat 1 start first second
  beside (Descent.reporting fun r => { r with iterations := steps })
  let loss ← k.hand x fun t => Descent.evaluate (s.loss.number t)
  beside (Descent.reporting fun r => { r with loss })
  let position ← look x
  beside (Descent.record fun h => (h.addPosition position.flatten).addLoss loss)
  let report ← beside (ExceptT.mk (do return .ok (← get).report) : Descent m α (Report α))
  beside (Descent.notify (.momentsEnded steps report.stepSize loss))
  return x

theorem stepAt_simulates (p : Precision) (h : Settings α) {first second : Nat} {ms : Moments α}
    (hkept : kept <+: desk) (hfirst : desk[first]? = some ms.first) (hsecond : desk[second]? = some ms.second)
    (size : α) :
    Simulates (m := StateT (Run α) m) kept desk (stepAt p h first second size)
      (liftM (stepOf p h ms size)) (Finds desk) := by
  have hcopy : desk <+: desk ++ [ms.second.convert p] := List.prefix_append ..
  refine .lift_bind (.look_bind hsecond (.put_bind (.rework_bind (hkept.trans hcopy)
    List.getElem?_concat_length fun weights => ?_)))
  rw [modify_concat]
  have hweights : desk <+: desk ++ [weights] := List.prefix_append ..
  refine .lift_bind (.look_bind (getElem?_later hfirst hweights) (.look_bind
    List.getElem?_concat_length (.bind_lift (hkept.trans hweights) fun direction _ => ?_)))
  have hstep := hweights.trans (List.prefix_append _ [direction.scale (-size)])
  exact .put_lift ⟨hstep, List.getElem?_concat_length⟩

/-- What an iteration on a desk leaves there. The point is one of its own. -/
def StepsAt (kept desk later : List (Tensor α)) (r' : StepAt α) (r : Moments α × α × Tensor α) : Prop :=
  desk <+: later ∧ later[r'.first]? = some r.1.first ∧ later[r'.second]? = some r.1.second ∧
    r'.length = r.2.1 ∧ later[r'.point]? = some r.2.2 ∧ kept.length ≤ r'.point

theorem iterationAt_simulates {s : Setup m α} (hg : Answers kept gradientAt s.gradient) {x first second : Nat}
    {tx : Tensor α} {ms : Moments α} (hkept : kept <+: desk) (hown : kept.length ≤ x)
    (hx : desk[x]? = some tx) (hfirst : desk[first]? = some ms.first)
    (hsecond : desk[second]? = some ms.second) (t : Nat) :
    Simulates kept desk (iterationAt s k gradientAt t x first second) (iteration s t tx ms)
      (StepsAt kept desk) := by
  refine .beside_bind hkept fun _ => ?_
  refine .hand_bind (c := fun t => Descent.evaluate (s.loss.number t)) hkept hown hx fun loss => ?_
  refine .bind (.nested (hg hkept hown hx)) ?_
  rintro desk₁ g gradient ⟨h₁, hgradient⟩
  have hkept₁ := hkept.trans h₁
  replace hx := getElem?_later hx h₁
  refine .look_bind hgradient (.look_bind hx (.bind_lift hkept₁ fun _ _ => ?_))
  refine .look_bind (getElem?_later hfirst h₁) (.look_bind (getElem?_later hsecond h₁)
    (.look_bind hgradient (.bind_lift hkept₁ fun after _ => .put_bind (.put_bind ?_))))
  -- Both moments get new places; the arrays of the iterations before stay where they are.
  have h₂ : desk₁ <+: desk₁ ++ [after.first] := List.prefix_append ..
  have h₃ : desk₁ ++ [after.first] <+: desk₁ ++ [after.first] ++ [after.second] := List.prefix_append ..
  have hafter : (desk₁ ++ [after.first] ++ [after.second])[desk₁.length]? = some after.first :=
    getElem?_later List.getElem?_concat_length h₃
  have hafter' : (desk₁ ++ [after.first] ++ [after.second])[(desk₁ ++ [after.first]).length]?
      = some after.second := List.getElem?_concat_length
  have hkept₃ := hkept₁.trans (h₂.trans h₃)
  refine .bind_lift hkept₃ fun size _ => .bind (stepAt_simulates _ _ hkept₃ hafter hafter' size) ?_
  rintro desk₂ step' step ⟨h₄, hstep⟩
  have h₁₄ := (h₂.trans h₃).trans h₄
  -- The point is moved to a place of its own, so a history that shows the old one keeps it.
  have hall := h₁.trans h₁₄
  replace hx := getElem?_later hx h₁₄
  refine .look_bind hx (.look_bind (getElem?_later hgradient h₁₄)
    (.beside_bind (hkept.trans hall) fun _ => .look_bind hstep (.look_bind hx (.look_bind hstep ?_))))
  refine .bind_lift (hkept.trans hall) fun next _ => .put_bind ?_
  have h₅ : desk₂ <+: desk₂ ++ [next] := List.prefix_append ..
  refine .beside_bind ((hkept.trans hall).trans h₅) fun _ => .pure ⟨hall.trans h₅, ?_, ?_, rfl,
    List.getElem?_concat_length, (hkept.trans hall).length_le⟩
  · exact getElem?_later hafter (h₄.trans h₅)
  · exact getElem?_later hafter' (h₄.trans h₅)

/-- So does that of a moment descent, with the places of both moments. -/
theorem iterateAt_simulates {s : Setup m α} (hg : Answers kept gradientAt s.gradient) (left : Nat) :
    ∀ {desk t x first second tx} {ms : Moments α}, kept <+: desk → kept.length ≤ x → desk[x]? = some tx →
      desk[first]? = some ms.first → desk[second]? = some ms.second →
      Simulates kept desk (iterateAt s k gradientAt left t x first second) (iterate s left t tx ms)
        fun later r' r => desk <+: later ∧ r'.1 = r.1 ∧ later[r'.2]? = some r.2 ∧ kept.length ≤ r'.2 := by
  -- By induction on the iterations that may follow, for all arrays that are there by then.
  induction left with
  | zero =>
    intro desk t x first second tx ms hkept hown hx hfirst hsecond
    unfold iterateAt iterate
    refine .bind (iterationAt_simulates hg hkept hown hx hfirst hsecond t) ?_
    rintro later ⟨_, _, _, y'⟩ ⟨after, length, y⟩ ⟨hlater, -, -, -, hy, hown'⟩
    exact .pure ⟨hlater, rfl, hy, hown'⟩
  | succ left ih =>
    intro desk t x first second tx ms hkept hown hx hfirst hsecond
    unfold iterateAt iterate
    refine .bind (iterationAt_simulates hg hkept hown hx hfirst hsecond t) ?_
    rintro later ⟨first', second', _, y'⟩ ⟨after, length, y⟩ ⟨hlater, hfirst', hsecond', rfl, hy, hown'⟩
    dsimp only
    split
    · exact .pure ⟨hlater, rfl, hy, hown'⟩
    · exact (ih (hkept.trans hlater) hown' hy hfirst' hsecond').mono
        fun _ _ _ h => ⟨hlater.trans h.1, h.2⟩

/-- A descent on a desk does what it does with the arrays themselves, and leaves those that were there. -/
theorem runAt_simulates {s : Setup m α} (hg : Answers kept gradientAt s.gradient) {guess : Nat}
    {t : Tensor α} (hkept : kept <+: desk) (h : desk[guess]? = some t) :
    Simulates kept desk (runAt s k gradientAt guess) (run s t) (Finds desk) := by
  unfold run
  dsimp only
  refine .look_bind h (.put_bind ?_)
  generalize t.convert s.precision = start
  have h₁ : desk <+: desk ++ [start] := List.prefix_append ..
  have hstart : (desk ++ [start])[desk.length]? = some start := List.getElem?_concat_length
  let zeros := start.scale (Scalar.zero : α)
  have h₂ : desk ++ [start] <+: desk ++ [start] ++ [zeros] := List.prefix_append ..
  have h₃ : desk ++ [start] ++ [zeros] <+: desk ++ [start] ++ [zeros] ++ [zeros] := List.prefix_append ..
  refine .look_bind hstart (.put_bind (.look_bind (getElem?_later hstart h₂) (.put_bind ?_)))
  let ms : Moments α := .start start
  have hfirst : (desk ++ [start] ++ [zeros] ++ [zeros])[(desk ++ [start]).length]? = some ms.first :=
    getElem?_later List.getElem?_concat_length h₃
  refine .bind (iterateAt_simulates hg _ (((hkept.trans h₁).trans h₂).trans h₃) hkept.length_le
    (getElem?_later hstart (h₂.trans h₃)) hfirst List.getElem?_concat_length) ?_
  rintro later ⟨steps, y'⟩ ⟨_, y⟩ ⟨hlater, rfl, hy, hown⟩
  have hall := ((h₁.trans h₂).trans h₃).trans hlater
  have hkept' := hkept.trans hall
  refine .beside_bind hkept' fun _ => ?_
  refine .hand_bind (c := fun t => Descent.evaluate (s.loss.number t)) hkept' hown hy fun loss => ?_
  exact .beside_bind hkept' fun _ => .look_bind hy (.beside_bind hkept' fun _ =>
    .beside_bind hkept' fun _ => .beside_bind hkept' fun _ => .pure ⟨hall, hy⟩)

end Adam

end Minimization
