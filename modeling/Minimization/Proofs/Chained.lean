import Mathlib.Order.Bounds.Defs

/-!
# Chained steps

The steps of a run are chained: each of them starts where the one before it ended. `Chained made a es b`
says so of a list of steps that lead from `a` to `b`, for a relation that says what a single step does.
What a run says about its steps by their positions follows from splitting the chain there.

`Halts` says when a loop stops making steps. How many it has made then is the least number that the limit
or a small step allows (`Halts.isLeast`).
-/

namespace Minimization

variable {σ ε : Type}

/-- The steps lead from one state to another. -/
inductive Chained (made : σ → ε → σ → Prop) : σ → List ε → σ → Prop
  | none {a} : Chained made a [] a
  | cons {a b c e es} : made a e b → Chained made b es c → Chained made a (e :: es) c

namespace Chained

variable {made : σ → ε → σ → Prop} {a b c : σ} {es : List ε} {e e' : ε} {k : Nat}

theorem snoc (h : Chained made a es b) (he : made b e c) : Chained made a (es ++ [e]) c := by
  induction h with
  | none => exact .cons he .none
  | cons he' _ ih => exact .cons he' (ih he)

/-- Where the steps lead is determined, if that of every step is. -/
theorem unique {b' : σ} (hmade : ∀ {a e b b'}, made a e b → made a e b' → b = b')
    (h : Chained made a es b) (h' : Chained made a es b') : b = b' := by
  induction h with
  | none =>
    cases h'
    rfl
  | cons he _ ih =>
    cases h' with
    | cons he' hes' =>
      obtain rfl := hmade he he'
      exact ih hes'

/-- A chain splits at every step. -/
theorem split (h : Chained made a es c) (hk : es[k]? = some e) :
    ∃ b b', Chained made a (es.take k) b ∧ made b e b' ∧ Chained made b' (es.drop (k + 1)) c := by
  induction h generalizing k with
  | none => cases hk
  | @cons a b c e₀ es he hes ih =>
    cases k with
    | zero =>
      obtain rfl : e₀ = e := Option.some.inj hk
      exact ⟨a, b, .none, he, hes⟩
    | succ k =>
      obtain ⟨d, d', htake, hmade, hdrop⟩ := ih hk
      exact ⟨d, d', .cons he htake, hmade, hdrop⟩

/-- A chain ends with its last step. -/
theorem unsnoc (h : Chained made a (es ++ [e]) c) : ∃ b, Chained made a es b ∧ made b e c := by
  obtain ⟨b, b', htake, hmade, hdrop⟩ := h.split List.getElem?_concat_length
  rw [List.take_left] at htake
  rw [List.drop_of_length_le (by simp)] at hdrop
  cases hdrop
  exact ⟨b, htake, hmade⟩

theorem made_of_mem (h : Chained made a es c) (he : e ∈ es) : ∃ b b', made b e b' := by
  obtain ⟨k, hk⟩ := List.mem_iff_getElem?.mp he
  obtain ⟨b, b', -, hmade, -⟩ := h.split hk
  exact ⟨b, b', hmade⟩

/-- The first step starts where the chain does. -/
theorem head (h : Chained made a es c) (hk : es[0]? = some e) : ∃ b, made a e b := by
  cases h with
  | none => cases hk
  | cons he _ =>
    obtain rfl := Option.some.inj hk
    exact ⟨_, he⟩

/-- A step starts where the one before it ended. -/
theorem consecutive (h : Chained made a es c) (hk : es[k]? = some e) (hk' : es[k + 1]? = some e') :
    ∃ b b' b'', made b e b' ∧ made b' e' b'' := by
  obtain ⟨b, b', -, hmade, hdrop⟩ := h.split hk
  have hhead : (es.drop (k + 1))[0]? = some e' := by
    rw [List.getElem?_drop, Nat.add_zero]
    exact hk'
  obtain ⟨b'', hmade'⟩ := hdrop.head hhead
  exact ⟨b, b', b'', hmade, hmade'⟩

/-- The last step ends where the chain does. -/
theorem last (h : Chained made a es c) (hk : es[es.length - 1]? = some e) : ∃ b, made b e c := by
  obtain ⟨b, b', -, hmade, hdrop⟩ := h.split hk
  have hnil : es.drop (es.length - 1 + 1) = [] := List.drop_of_length_le (by omega)
  rw [hnil] at hdrop
  cases hdrop
  exact ⟨b, hmade⟩

/-- What holds at the start, and is kept by every step, holds at the end. -/
theorem keeps {I : σ → Prop} (h : Chained made a es c) (h₀ : I a)
    (hstep : ∀ {b e b'}, made b e b' → I b → I b') : I c := by
  induction h with
  | none => exact h₀
  | cons he _ ih => exact ih (hstep he h₀)

/-- What is kept may be about the number of steps that were made. -/
theorem invariant {I : Nat → σ → Prop} {n : Nat} (h : Chained made a es c) (h₀ : I n a)
    (hstep : ∀ {n b e b'}, made b e b' → I n b → I (n + 1) b') : I (n + es.length) c := by
  induction h generalizing n with
  | none => exact h₀
  | @cons a b c e es he _ ih =>
    have hrest := ih (hstep he h₀)
    rw [Nat.add_right_comm] at hrest
    exact hrest

/-- So every step starts where it holds. -/
theorem invariant_at {I : Nat → σ → Prop} {n : Nat} (h : Chained made a es c) (h₀ : I n a)
    (hstep : ∀ {n b e b'}, made b e b' → I n b → I (n + 1) b') (hk : es[k]? = some e) :
    ∃ b b', made b e b' ∧ I (n + k) b := by
  obtain ⟨b, b', htake, hmade, -⟩ := h.split hk
  have hlength : (es.take k).length = k :=
    List.length_take_of_le (Nat.le_of_lt (List.getElem?_eq_some_iff.mp hk).1)
  have hI := htake.invariant h₀ hstep
  rw [hlength] at hI
  exact ⟨b, b', hmade, hI⟩

/-- A chain of steps is one of other steps, if every step that starts where the invariant holds is. -/
theorem translate {δ : Type} {made' : σ → δ → σ → Prop} {I : σ → Prop} (h : Chained made a es c)
    (h₀ : I a) (hstep : ∀ {b e b'}, made b e b' → I b → ∃ d, made' b d b' ∧ I b') :
    ∃ ds : List δ, ds.length = es.length ∧ Chained made' a ds c ∧ I c := by
  induction h with
  | none => exact ⟨[], rfl, .none, h₀⟩
  | cons he _ ih =>
    obtain ⟨d, hd, hI⟩ := hstep he h₀
    obtain ⟨ds, hlength, hds, hc⟩ := ih hI
    exact ⟨d :: ds, congrArg (· + 1) hlength, .cons hd hds, hc⟩

end Chained

/-! ## Loops that halt -/

/-- The steps of a loop that may make `left` more of them after the first one, and that stops early after
a small one. -/
inductive Halts (small : ε → Prop) : (left : Nat) → List ε → Prop
  | last {e} : Halts small 0 [e]
  | small {left e} : small e → Halts small (left + 1) [e]
  | step {left e es} : ¬small e → Halts small left es → Halts small (left + 1) (e :: es)

namespace Halts

variable {small : ε → Prop} {left : Nat} {es : List ε}

theorem ne_nil (h : Halts small left es) : es ≠ [] := by
  cases h
  all_goals exact List.cons_ne_nil _ _

theorem isLeast_left (h : Halts small left es) :
    IsLeast {k : Nat | 1 ≤ k ∧ (left + 1 ≤ k ∨ ∃ e, es[k - 1]? = some e ∧ small e)} es.length := by
  induction h with
  | last => exact ⟨⟨Nat.le_refl 1, .inl (Nat.le_refl 1)⟩, fun _ hk => hk.1⟩
  | small hsmall => exact ⟨⟨Nat.le_refl 1, .inr ⟨_, rfl, hsmall⟩⟩, fun _ hk => hk.1⟩
  | @step left e es hlarge _ ih =>
    obtain ⟨⟨hpos, hstop⟩, hleast⟩ := ih
    rw [List.length_cons]
    refine ⟨⟨Nat.le_add_left 1 _, ?_⟩, fun k ⟨hk, hstop⟩ => ?_⟩
    · rcases hstop with hlimit | ⟨e', he', hsmall⟩
      · exact .inl (Nat.succ_le_succ hlimit)
      · refine .inr ⟨e', ?_, hsmall⟩
        rw [Nat.add_sub_cancel, ← Nat.sub_add_cancel hpos, List.getElem?_cons_succ, he']
    · -- The first step is neither small nor the last one, so a later one is.
      obtain _ | _ | j := k
      · omega
      · rcases hstop with hlimit | ⟨e', he', hsmall⟩
        · omega
        · obtain rfl := Option.some.inj he'
          exact absurd hsmall hlarge
      · refine Nat.succ_le_succ (hleast ⟨Nat.le_add_left 1 j, ?_⟩)
        exact hstop.imp Nat.le_of_succ_le_succ fun ⟨e', he', hsmall⟩ => ⟨e', he', hsmall⟩

/-- A loop makes the first number of steps that reaches the limit or ends with a small one, but at least
one. -/
theorem isLeast {limit : Int} (h : Halts small (limit - 1).toNat es) :
    IsLeast {k : Nat | 1 ≤ k ∧ (limit ≤ k ∨ ∃ e, es[k - 1]? = some e ∧ small e)} es.length := by
  have hset : {k : Nat | 1 ≤ k ∧ (limit ≤ k ∨ ∃ e, es[k - 1]? = some e ∧ small e)}
      = {k : Nat | 1 ≤ k ∧ ((limit - 1).toNat + 1 ≤ k ∨ ∃ e, es[k - 1]? = some e ∧ small e)} := by
    ext k
    exact and_congr_right fun hk => or_congr_left (by omega)
  rw [hset]
  exact h.isLeast_left

theorem length_le (h : Halts small left es) : es.length ≤ left + 1 :=
  h.isLeast_left.2 ⟨Nat.le_add_left 1 left, .inl (Nat.le_refl _)⟩

end Halts

end Minimization
