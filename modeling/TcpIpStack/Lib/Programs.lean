/-
# Programs that change a state and may throw

A program is a value of `EStateM ε σ α`: it takes a state to a result and a new
state, or throws and leaves the state as it stood at the throw.  `after` is the
state it leaves either way.

`Does R m s` says that the program takes `s` to a state that `R` relates to it.
For a reflexive and transitive `R` it is proved from the parts of the program:
`does_bind`, `does_get_bind`, `does_modify`, `does_forM` and `does_catching`.
With `R` the steps that are possible at all, or the states that keep an
invariant, that is what a program can do whether it returns or throws.
-/

import Mathlib

namespace Programs

variable {ε σ α β : Type}

/-- The state a program leaves. -/
def after (m : EStateM ε σ α) (s : σ) : σ :=
  match m.run s with
  | .ok _ s' => s'
  | .error _ s' => s'

/-- Run a program and go on after the exceptions that `caught` names. -/
def catching (caught : ε → Bool) (m : EStateM ε σ Unit) : EStateM ε σ Unit := fun s =>
  match m.run s with
  | .ok _ s' => .ok () s'
  | .error e s' => if caught e then .ok () s' else .error e s'

/-- The state that a program leaves is one that `R` allows. -/
def Does (R : σ → σ → Prop) (m : EStateM ε σ α) (s : σ) : Prop := R s (after m s)

/-! ### Running -/

section Run

variable {m : EStateM ε σ α} {f : α → EStateM ε σ β} {s s' : σ} {a : α} {e : ε}

theorem run_bind_ok (h : m.run s = .ok a s') : (m >>= f).run s = (f a).run s' := by
  rw [EStateM.run_bind, h]

theorem run_bind_error (h : m.run s = .error e s') : (m >>= f).run s = .error e s' := by
  rw [EStateM.run_bind, h]

@[simp] theorem run_get_bind (f : σ → EStateM ε σ β) (s : σ) : (get >>= f).run s = (f s).run s := rfl

@[simp] theorem run_modify_bind (g : σ → σ) (f : PUnit → EStateM ε σ β) (s : σ) :
    (modify g >>= f).run s = (f ()).run (g s) := rfl

theorem forM_cons (f : α → EStateM ε σ PUnit) (a : α) (l : List α) :
    (a :: l).forM f = f a >>= fun _ => l.forM f := rfl

theorem after_ok (h : m.run s = .ok a s') : after m s = s' := by
  rw [after, h]

theorem after_error (h : m.run s = .error e s') : after m s = s' := by
  rw [after, h]

theorem after_bind_ok (h : m.run s = .ok a s') : after (m >>= f) s = after (f a) s' := by
  rw [after, run_bind_ok h, after]

theorem after_bind_error (h : m.run s = .error e s') : after (m >>= f) s = s' :=
  after_error (run_bind_error h)

theorem run_catching (caught : ε → Bool) (m : EStateM ε σ Unit) (s : σ) : (catching caught m).run s =
      match m.run s with
      | .ok _ s' => .ok () s'
      | .error e s' => if caught e then .ok () s' else .error e s' := rfl

theorem run_catching_ok {caught : ε → Bool} {m : EStateM ε σ Unit} (h : m.run s = .ok () s') :
    (catching caught m).run s = .ok () s' := by
  rw [run_catching, h]

theorem run_catching_error {caught : ε → Bool} {m : EStateM ε σ Unit} (h : m.run s = .error e s') :
    (catching caught m).run s = if caught e then .ok () s' else .error e s' := by
  rw [run_catching, h]

theorem after_catching (caught : ε → Bool) (m : EStateM ε σ Unit) (s : σ) :
    after (catching caught m) s = after m s := by
  cases h : m.run s with
  | ok a s' => rw [after_ok h, after_ok (run_catching_ok h)]
  | error e s' =>
    rw [after_error h, after, run_catching_error h]
    cases caught e <;> rfl

end Run

/-! ### What a program does -/

section Rules

variable {R : σ → σ → Prop}

theorem does_pure [Std.Refl R] (a : α) (s : σ) : Does R (pure a : EStateM ε σ α) s := Std.Refl.refl s

theorem does_throw [Std.Refl R] (e : ε) (s : σ) : Does R (throw e : EStateM ε σ α) s := Std.Refl.refl s

variable {s : σ}

theorem does_mono {R' : σ → σ → Prop} {m : EStateM ε σ α} (h : ∀ s s', R s s' → R' s s')
    (hm : Does R m s) : Does R' m s := h _ _ hm

theorem does_modify {f : σ → σ} (h : R s (f s)) : Does R (modify f : EStateM ε σ PUnit) s := h

theorem does_modify_bind [IsTrans σ R] {g : σ → σ} {f : PUnit → EStateM ε σ β} (h : R s (g s))
    (hf : Does R (f ()) (g s)) : Does R (modify g >>= f) s :=
  IsTrans.trans _ _ _ h hf

theorem does_get_bind {f : σ → EStateM ε σ α} (h : Does R (f s) s) : Does R (get >>= f) s := h

theorem does_bind [IsTrans σ R] {m : EStateM ε σ α} {f : α → EStateM ε σ β} (hm : Does R m s)
    (hf : ∀ a s', m.run s = .ok a s' → Does R (f a) s') : Does R (m >>= f) s := by
  cases h : m.run s with
  | ok a s' =>
    rw [Does, after_ok h] at hm
    have hrest := hf a s' h
    rw [Does, after_bind_ok h]
    exact IsTrans.trans _ _ _ hm hrest
  | error e s' =>
    rw [Does, after_error h] at hm
    rw [Does, after_bind_error h]
    exact hm

theorem does_catching {caught : ε → Bool} {m : EStateM ε σ Unit} (h : Does R m s) :
    Does R (catching caught m) s := by
  rw [Does, after_catching]
  exact h

theorem does_forM [Std.Refl R] [IsTrans σ R] {f : α → EStateM ε σ PUnit} {l : List α}
    (h : ∀ a ∈ l, ∀ s, Does R (f a) s) (s : σ) : Does R (l.forM f) s := by
  induction l generalizing s with
  | nil => exact does_pure _ s
  | cons a l ih =>
    obtain ⟨ha, hl⟩ := List.forall_mem_cons.1 h
    rw [forM_cons]
    exact does_bind (ha s) fun _ s' _ => ih hl s'

end Rules

end Programs
