/-
# The completion queue, step by step

`epoll-server/src/completion_queue.cpp` between its threads.  `push` inserts under
the mutex and then adds one to the event counter; `drain_and_run` reads the counter
until it is zero, then swaps the deque out under the mutex, then runs what it has.
Any number of threads push, and a task that is being run pushes on the draining
thread itself.

Insertion comes before the signal, and the read before the swap.  So a task that is
in the deque has its signal still to come, or counted, or read by a drainer that has
not swapped yet (`completion_queue_loses_nothing`).
-/

import TcpIpStack.Lib.Runs

namespace TcpIpStack

open Runs

/-- How a task ends: it returns, or throws a `std::exception` or something else. -/
inductive Outcome
  | returned
  | exception
  | other
deriving DecidableEq

/-- A `catch` clause: `catch (const std::exception&)` or `catch (...)`. -/
inductive Catch
  | stdException
  | everything

/-- Whether a clause takes what was thrown. -/
def Catch.takes : Catch → Outcome → Bool
  | stdException, outcome => outcome = .exception
  | everything, _ => true

/-- Whether a task that ends so leaves a `try` with these clauses by an exception. -/
def Outcome.escapes (clauses : List Catch) (outcome : Outcome) : Bool :=
  outcome ≠ .returned && !clauses.any (·.takes outcome)

/-- The clauses around a task, in `drain_and_run` and in `_worker_loop` alike. -/
def taskClauses : List Catch := [.stdException, .everything]

theorem not_escapes_taskClauses (outcome : Outcome) : outcome.escapes taskClauses = false := by
  cases outcome <;> rfl

/-- Where the draining thread is in `drain_and_run`. -/
inductive Drainer (τ : Type)
  | idle
  /-- It has read the counter, and reads it again until there is nothing to read. -/
  | reading
  | swapping
  /-- It has these tasks left, and is in the middle of one or between two. -/
  | running (ready : List τ) (current : Option τ)

namespace Drainer

variable {τ : Type}

/-- What was swapped out and not started. -/
def ready : Drainer τ → List τ
  | running ready _ => ready
  | _ => []

/-- The counter has been read and the deque not yet swapped. -/
def BetweenReadAndSwap : Drainer τ → Prop
  | reading | swapping => True
  | _ => False

end Drainer

/-- `CompletionQueue`.  A thread that pushes is named by `some`, the draining thread
is `none`. -/
structure CompletionQueue (τ ι : Type) where
  tasks : List τ := []
  /-- The counter of `_event_fd`. -/
  counter : ℕ := 0
  /-- The threads that have inserted a task and not signalled yet. -/
  signalling : Finset (Option ι) := ∅
  drainer : Drainer τ := .idle
  /-- What was inserted so far, and what was run, in order. -/
  pushed : List τ := []
  ran : List τ := []

/-- The atomic steps. -/
inductive QueueStep (τ ι : Type)
  | insert (pusher : Option ι) (task : τ)
  | signal (pusher : Option ι)
  | read
  | swap
  | start
  | finish (outcome : Outcome)
  | leave

namespace QueueStep

variable {τ ι : Type} [DecidableEq ι]

/-- Whether a thread may push: the draining thread does so only from a task. -/
def mayPush (q : CompletionQueue τ ι) : Option ι → Bool
  | some _ => true
  | none =>
    match q.drainer with
    | .running _ (some _) => true
    | _ => false

/-- The queue after a step, if the step is possible. -/
def run : QueueStep τ ι → CompletionQueue τ ι → Option (CompletionQueue τ ι)
  | insert pusher task, q =>
    if pusher ∉ q.signalling ∧ mayPush q pusher then
      some { q with
        tasks := q.tasks ++ [task]
        signalling := Insert.insert pusher q.signalling
        pushed := q.pushed ++ [task] }
    else none
  | signal pusher, q =>
    if pusher ∈ q.signalling then
      some { q with counter := q.counter + 1, signalling := q.signalling.erase pusher }
    else none
  | read, q =>
    match q.drainer with
    | .idle | .reading =>
      -- a read that finds zero fails, and ends the loop
      if 0 < q.counter then some { q with counter := 0, drainer := .reading }
      else some { q with drainer := .swapping }
    | _ => none
  | swap, q =>
    match q.drainer with
    | .swapping => some { q with tasks := [], drainer := .running q.tasks none }
    | _ => none
  | start, q =>
    match q.drainer with
    | .running (task :: ready) none =>
      some { q with drainer := .running ready (some task), ran := q.ran ++ [task] }
    | _ => none
  | finish outcome, q =>
    match q.drainer with
    | .running ready (some _) =>
      -- `push` does not throw between its two steps
      if none ∈ q.signalling then none
      -- what escapes unwinds `drain_and_run`, and `ready` with it
      else if outcome.escapes taskClauses then some { q with drainer := .idle }
      else some { q with drainer := .running ready none }
    | _ => none
  | leave, q =>
    match q.drainer with
    | .running [] none => some { q with drainer := .idle }
    | _ => none

end QueueStep

namespace CompletionQueue

variable {τ ι : Type} [DecidableEq ι] {q q' : CompletionQueue τ ι}

/-- Every task that was pushed has been run, is about to be, or is in the deque, in
the order of the pushes; and if one is in the deque, its wakeup is under way. -/
structure Sound (q : CompletionQueue τ ι) : Prop where
  order : q.pushed = q.ran ++ q.drainer.ready ++ q.tasks
  wakeup : q.tasks ≠ [] →
    q.drainer.BetweenReadAndSwap ∨ 0 < q.counter ∨ q.signalling.Nonempty

omit [DecidableEq ι] in
theorem sound_new : ({} : CompletionQueue τ ι).Sound := ⟨rfl, fun h => absurd rfl h⟩

omit [DecidableEq ι] in
/-- A step of the drainer alone that changes neither the deque nor the counter, and
does not leave the stretch between read and swap. -/
theorem Sound.of_drainer {drainer : Drainer τ} {ran : List τ} (h : q.Sound)
    (hran : ran ++ drainer.ready = q.ran ++ q.drainer.ready) (hbetween : ¬ q.drainer.BetweenReadAndSwap) :
    ({ q with drainer := drainer, ran := ran } : CompletionQueue τ ι).Sound := by
  refine ⟨?_, fun htasks => .inr ?_⟩
  · change q.pushed = ran ++ drainer.ready ++ q.tasks
    rw [hran]
    exact h.order
  · exact (h.wakeup htasks).resolve_left hbetween

theorem Sound.insert {pusher : Option ι} {task : τ} (h : q.Sound)
    (hrun : (QueueStep.insert pusher task).run q = some q') : q'.Sound := by
  simp only [QueueStep.run, Option.ite_none_right_eq_some, Option.some.injEq] at hrun
  obtain ⟨-, rfl⟩ := hrun
  refine ⟨?_, fun _ => .inr (.inr (Finset.insert_nonempty ..))⟩
  rw [h.order, List.append_assoc]

theorem Sound.signal {pusher : Option ι} (h : q.Sound)
    (hrun : (QueueStep.signal pusher).run q = some q') : q'.Sound := by
  simp only [QueueStep.run, Option.ite_none_right_eq_some, Option.some.injEq] at hrun
  obtain ⟨-, rfl⟩ := hrun
  exact ⟨h.order, fun _ => .inr (.inl (Nat.succ_pos _))⟩

/-- The read may take the signal of a task that is in the deque: the swap is then
still to come. -/
theorem Sound.read (h : q.Sound) (hrun : QueueStep.read.run q = some q') : q'.Sound := by
  have hready : q.drainer.ready = [] ∧ q'.drainer.ready = [] ∧ q'.drainer.BetweenReadAndSwap ∧
      q'.pushed = q.pushed ∧ q'.ran = q.ran ∧ q'.tasks = q.tasks := by
    rcases hdrainer : q.drainer with _ | _ | _ | _
    all_goals simp only [QueueStep.run, hdrainer, reduceCtorEq] at hrun
    all_goals
      split_ifs at hrun
      all_goals
        cases hrun
        exact ⟨rfl, rfl, trivial, rfl, rfl, rfl⟩
  obtain ⟨hbefore, hafter, hbetween, hpushed, hran, htasks⟩ := hready
  refine ⟨?_, fun _ => .inl hbetween⟩
  rw [hpushed, hran, htasks, hafter, h.order, hbefore]

theorem Sound.swap (h : q.Sound) (hrun : QueueStep.swap.run q = some q') : q'.Sound := by
  have horder := h.order
  rcases hdrainer : q.drainer with _ | _ | _ | _
  all_goals simp only [QueueStep.run, hdrainer, reduceCtorEq, Option.some.injEq] at hrun
  subst hrun
  refine ⟨?_, fun htasks => absurd rfl htasks⟩
  simpa only [hdrainer, Drainer.ready, List.append_nil] using horder

theorem Sound.start (h : q.Sound) (hrun : QueueStep.start.run q = some q') : q'.Sound := by
  simp only [QueueStep.run] at hrun
  split at hrun
  · next task ready hdrainer =>
    cases hrun
    refine h.of_drainer ?_ (by rw [hdrainer]; exact id)
    simp [hdrainer, Drainer.ready]
  · cases hrun

theorem Sound.finish {outcome : Outcome} (h : q.Sound)
    (hrun : (QueueStep.finish outcome).run q = some q') : q'.Sound := by
  simp only [QueueStep.run] at hrun
  split at hrun
  · next ready task hdrainer =>
    simp only [not_escapes_taskClauses, Bool.false_eq_true, if_false,
      Option.ite_none_left_eq_some, Option.some.injEq] at hrun
    obtain ⟨-, rfl⟩ := hrun
    refine h.of_drainer ?_ (by rw [hdrainer]; exact id)
    rw [hdrainer]
    rfl
  · cases hrun

theorem Sound.leave (h : q.Sound) (hrun : QueueStep.leave.run q = some q') : q'.Sound := by
  simp only [QueueStep.run] at hrun
  split at hrun
  · next hdrainer =>
    cases hrun
    refine h.of_drainer ?_ (by rw [hdrainer]; exact id)
    rw [hdrainer]
    rfl
  · cases hrun

theorem Sound.step (a : QueueStep τ ι) (h : q.Sound) (hrun : a.run q = some q') : q'.Sound := by
  cases a with
  | insert pusher task => exact h.insert hrun
  | signal pusher => exact h.signal hrun
  | read => exact h.read hrun
  | swap => exact h.swap hrun
  | start => exact h.start hrun
  | finish outcome => exact h.finish hrun
  | leave => exact h.leave hrun

/-- **The queue loses neither a task nor a wakeup**, however the steps of the threads
are interleaved.  The tasks that were run are the first ones pushed, each once and in
the order of the pushes; the others are about to run or in the deque.  If there is one
in the deque, no thread is about to signal and the drainer is not between its read and
its swap, then the counter is not zero and the descriptor is readable. -/
theorem completion_queue_loses_nothing {steps : List (QueueStep τ ι)}
    (hrun : runs QueueStep.run steps {} = some q) :
    q.pushed = q.ran ++ q.drainer.ready ++ q.tasks ∧
      q.ran <+: q.pushed ∧ (q.pushed.Nodup → q.ran.Nodup) ∧
      (q.tasks ≠ [] → q.signalling = ∅ → ¬ q.drainer.BetweenReadAndSwap → q.counter ≠ 0) := by
  have h : q.Sound := runs_induction (fun a _ _ hq ha => hq.step a ha) sound_new hrun
  have hfirst : q.ran <+: q.pushed := ⟨q.drainer.ready ++ q.tasks, by
    rw [h.order, List.append_assoc]⟩
  refine ⟨h.order, hfirst, fun hpushed => hpushed.sublist hfirst.sublist, ?_⟩
  intro htasks hsignalling hbetween
  rcases h.wakeup htasks with hread | hcounter | hpusher
  · exact absurd hread hbetween
  · exact hcounter.ne'
  · exact absurd hsignalling hpusher.ne_empty

/-- Two threads push; the second inserts after the counter was read.  The first task
pushes another one and throws, and the second one still runs. -/
def throwingPush : List (QueueStep ℕ ℕ) :=
  [.insert (some 0) 10, .signal (some 0), .read, .insert (some 1) 11, .read, .swap, .start,
    .insert none 12, .signal (some 1), .signal none, .finish .other, .start, .finish .returned,
    .leave]

theorem throwingPush_runs : (runs QueueStep.run throwingPush {}).isSome = true := by
  decide +kernel

theorem throwingPush_signalled :
    ∃ q : CompletionQueue ℕ ℕ, runs QueueStep.run throwingPush {} = some q ∧
      q.ran = [10, 11] ∧ q.tasks = [12] ∧ q.ran <+: q.pushed ∧ q.counter ≠ 0 := by
  have hrun := (Option.some_get throwingPush_runs).symm
  obtain ⟨-, hfirst, -, hcounter⟩ := completion_queue_loses_nothing hrun
  refine ⟨_, hrun, ?_, ?_, hfirst, hcounter ?_ ?_ ?_⟩
  · decide +kernel
  · decide +kernel
  · decide +kernel
  · decide +kernel
  · exact id

end CompletionQueue

end TcpIpStack
