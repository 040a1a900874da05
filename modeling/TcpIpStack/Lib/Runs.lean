/-
# Runs of a partial step function

A system is a function that takes an action and a state to the next state, or
to nothing when the action is not possible.  `runs` performs a list of actions,
and `Along ok` says that every action of a run meets a condition in the state
it is performed in.  `runs_invariant` is the rule everything else uses: what
one step that meets the condition preserves, a run whose steps all meet it
preserves; `runs_iff_along` is the rule for a condition that is exact.  `Somewhere P` says that some action of a run does `P`, and
`somewhere_of_runs` finds the action that brought about what holds at the end and
not at the beginning.  `Interspersed` puts further actions into a run, and
`runs_interspersed` says that actions which change nothing where they are
performed leave the run as it is.
-/

import Mathlib

namespace Runs

variable {σ ε : Type}

/-- The state after a list of actions. -/
def runs (step : ε → σ → Option σ) : List ε → σ → Option σ
  | [], s => some s
  | e :: es, s => (step e s).bind (runs step es)

/-- Every action of the run meets the condition where it is performed. -/
def Along (step : ε → σ → Option σ) (ok : ε → σ → Prop) : List ε → σ → Prop
  | [], _ => True
  | e :: es, s => ok e s ∧
    match step e s with
    | none => True
    | some s' => Along step ok es s'

variable {step : ε → σ → Option σ} {ok : ε → σ → Prop} {es : List ε} {s t : σ}

def decidableAlong [∀ e s, Decidable (ok e s)] : (es : List ε) → (s : σ) →
    Decidable (Along step ok es s)
  | [], _ => isTrue trivial
  | e :: es, s =>
    match hs : step e s with
    | none => decidable_of_iff (ok e s) (by simp [Along, hs])
    | some s' =>
      have := decidableAlong es s'
      decidable_of_iff (ok e s ∧ Along step ok es s') (by simp [Along, hs])

instance [∀ e s, Decidable (ok e s)] : Decidable (Along step ok es s) := decidableAlong es s

variable {I : σ → Prop}

/-- **What a step preserves, a run preserves.** -/
theorem runs_invariant (hstep : ∀ e s t, I s → ok e s → step e s = some t → I t)
    (hs : I s) (hok : Along step ok es s) (h : runs step es s = some t) : I t := by
  induction es generalizing s with
  | nil => exact Option.some.inj h ▸ hs
  | cons e es ih =>
    obtain ⟨s', hs', hrest⟩ := Option.bind_eq_some_iff.1 h
    obtain ⟨hok₁, hok₂⟩ := hok
    rw [hs'] at hok₂
    exact ih (hstep e s s' hs hok₁ hs') hok₂ hrest

theorem Along.and_of_forall {p : ε → Prop} (h : Along step ok es s) (hp : ∀ e ∈ es, p e) :
    Along step (fun e s => p e ∧ ok e s) es s := by
  induction es generalizing s with
  | nil => trivial
  | cons e es ih =>
    obtain ⟨hok, hrest⟩ := h
    obtain ⟨he, hes⟩ := List.forall_mem_cons.1 hp
    refine ⟨⟨he, hok⟩, ?_⟩
    split
    · trivial
    · next s' hs' =>
      rw [hs'] at hrest
      exact ih hrest hes

theorem Along.mono {ok' : ε → σ → Prop} (himp : ∀ e s, ok e s → ok' e s) (h : Along step ok es s) :
    Along step ok' es s := by
  induction es generalizing s with
  | nil => trivial
  | cons e es ih =>
    refine ⟨himp e s h.1, ?_⟩
    have hrest := h.2
    split
    · trivial
    · next s' hs' =>
      rw [hs'] at hrest
      exact ih hrest

theorem along_true : Along step (fun _ _ => True) es s := by
  induction es generalizing s with
  | nil => trivial
  | cons e es ih =>
    refine ⟨trivial, ?_⟩
    split
    · trivial
    · exact ih

theorem runs_induction (hstep : ∀ e s t, I s → step e s = some t → I t)
    (hs : I s) (h : runs step es s = some t) : I t :=
  runs_invariant (fun e s t hI _ => hstep e s t hI) hs along_true h

/-- **A condition that is exact**: a step that meets it preserves, one that does
not breaks for good. -/
theorem runs_iff_along {B : σ → Prop} (hkeep : ∀ e s t, I s → ok e s → step e s = some t → I t)
    (hbreak : ∀ e s t, I s → ¬ ok e s → step e s = some t → B t)
    (hstays : ∀ e s t, B s → step e s = some t → B t) (hnot : ∀ s, B s → ¬ I s)
    (hs : I s) (h : runs step es s = some t) : I t ↔ Along step ok es s := by
  induction es generalizing s with
  | nil => exact iff_of_true (Option.some.inj h ▸ hs) trivial
  | cons e es ih =>
    obtain ⟨s', hs', hrest⟩ := Option.bind_eq_some_iff.1 h
    rw [Along, hs']
    by_cases hok : ok e s
    · rw [ih (hkeep e s s' hs hok hs') hrest]
      exact (and_iff_right hok).symm
    · have hbroken : B t := runs_induction hstays (hbreak e s s' hs hok hs') hrest
      exact iff_of_false (hnot t hbroken) fun hboth => hok hboth.1

/-- Some action of the run does `P` where it is performed. -/
def Somewhere (step : ε → σ → Option σ) (P : ε → σ → σ → Prop) : List ε → σ → Prop
  | [], _ => False
  | e :: es, s => ∃ t, step e s = some t ∧ (P e s t ∨ Somewhere step P es t)

/-- **What holds at the end and not at the beginning was brought about on the
way.** -/
theorem somewhere_of_runs {P : ε → σ → σ → Prop} {Q : σ → Prop}
    (hstep : ∀ e s t, step e s = some t → ¬ Q s → Q t → P e s t) (hs : ¬ Q s) (ht : Q t)
    (h : runs step es s = some t) : Somewhere step P es s := by
  induction es generalizing s with
  | nil => exact absurd (Option.some.inj h ▸ ht) hs
  | cons e es ih =>
    obtain ⟨s', hs', hrest⟩ := Option.bind_eq_some_iff.1 h
    refine ⟨s', hs', ?_⟩
    by_cases hq : Q s'
    · exact .inl (hstep e s s' hs' hs hq)
    · exact .inr (ih hq hrest)

/-- The actions of a run from `s`, and the same with hidden actions in between. -/
inductive Interspersed (step : ε → σ → Option σ) (hidden : ε → σ → Prop) :
    σ → List ε → List ε → Prop
  | done (s : σ) : Interspersed step hidden s [] []
  | same {s t : σ} {e : ε} {es es' : List ε} (hstep : step e s = some t)
      (hrest : Interspersed step hidden t es es') : Interspersed step hidden s (e :: es) (e :: es')
  | extra {s : σ} {e : ε} {es es' : List ε} (hhidden : hidden e s)
      (hrest : Interspersed step hidden s es es') : Interspersed step hidden s es (e :: es')

/-- **Actions that change nothing do not change a run.** -/
theorem runs_interspersed {hidden : ε → σ → Prop} {p : ε → Prop} {es' : List ε}
    (hstep : ∀ e s t, p e → I s → step e s = some t → I t)
    (hhidden : ∀ e s, I s → hidden e s → step e s = some s)
    (h : Interspersed step hidden s es es') (hp : ∀ e ∈ es, p e) (hs : I s) :
    runs step es' s = runs step es s := by
  induction h with
  | done s => rfl
  | same hone _ ih =>
    obtain ⟨he, hes⟩ := List.forall_mem_cons.1 hp
    rw [runs, runs, hone, Option.bind_some, Option.bind_some, ih hes (hstep _ _ _ he hs hone)]
  | extra hno _ ih => rw [runs, hhidden _ _ hs hno, Option.bind_some, ih hp hs]

end Runs
