/-
# The thread pool, step by step

`epoll-server/src/thread_pool.cpp` between its threads.  What is done under
`_queue_mutex` is one step: a call of `submit`, a worker's look at the predicate of
its wait, and the first half of `shutdown`.  A worker that waits is woken by a
notification, or for no reason.  Tasks are numbered by the calls of `submit`.

`Moves` says once what a step can do.  Three invariants follow from it: where every
task is (`Ledger`), which worker is awake (`Awake`) and which has been joined
(`Joined`).
-/

import TcpIpStack.Server.CompletionQueue

namespace TcpIpStack

open Runs

/-- Where a worker is in `_worker_loop`. -/
inductive Worker
  /-- About to take the mutex: at the top of the loop, or woken. -/
  | atLock
  | waiting
  | running (task : ℕ)
  | returned
  /-- An exception left the loop. -/
  | died
deriving DecidableEq

/-- What a worker is running. -/
def Worker.task : Worker → Multiset ℕ
  | running task => {task}
  | _ => 0

/-- Where the thread that calls `shutdown` is: outside, or at `join` of a worker. -/
inductive Caller
  | outside
  | joining (next : ℕ)
deriving DecidableEq

/-- `ThreadPool`, with its workers and a record of what happened to the tasks. -/
structure ThreadPool (n : ℕ) where
  tasks : List ℕ := []
  stopping : Bool := false
  workers : Fin n → Worker := fun _ => .atLock
  /-- The threads that are no longer `joinable`. -/
  joined : Fin n → Bool := fun _ => false
  caller : Caller := .outside
  /-- How many calls of `shutdown` have returned. -/
  shutdowns : ℕ := 0
  /-- The calls of `submit`, those that returned true and those that returned false. -/
  submitted : ℕ := 0
  accepted : List ℕ := []
  refused : List ℕ := []
  started : List ℕ := []
  finished : List ℕ := []

/-- The atomic steps. -/
inductive PoolStep (n : ℕ)
  /-- `notify_one` wakes a worker that waits, if there is one. -/
  | submit (woken : Option (Fin n))
  | check (w : Fin n)
  | spuriousWake (w : Fin n)
  | finish (w : Fin n) (outcome : Outcome)
  | shutdown
  | join
  | leave

namespace ThreadPool

variable {n : ℕ}

/-- Whether `notify_one` can have this effect. -/
def mayWake (workers : Fin n → Worker) : Option (Fin n) → Bool
  | some w => workers w = .waiting
  | none => ∀ w, workers w ≠ .waiting

/-- `notify_one` -/
def notifyOne (workers : Fin n → Worker) : Option (Fin n) → Fin n → Worker
  | some w => Function.update workers w .atLock
  | none => workers

/-- `notify_all` -/
def notifyAll (workers : Fin n → Worker) : Fin n → Worker := fun w =>
  if workers w = .waiting then .atLock else workers w

/-- `submit` -/
def submit (p : ThreadPool n) (woken : Option (Fin n)) : Option (ThreadPool n) :=
  if p.stopping then
    some { p with submitted := p.submitted + 1, refused := p.refused ++ [p.submitted] }
  else if mayWake p.workers woken then
    some { p with
      tasks := p.tasks ++ [p.submitted]
      workers := notifyOne p.workers woken
      submitted := p.submitted + 1
      accepted := p.accepted ++ [p.submitted] }
  else none

/-- The part of `_worker_loop` under the mutex. -/
def check (p : ThreadPool n) (w : Fin n) : ThreadPool n :=
  -- the predicate of the wait
  if p.stopping ∨ p.tasks ≠ [] then
    match p.tasks with
    | [] => { p with workers := Function.update p.workers w .returned }
    | task :: tasks =>
      { p with
        tasks := tasks
        workers := Function.update p.workers w (.running task)
        started := p.started ++ [task] }
  else { p with workers := Function.update p.workers w .waiting }

/-- The rest of the loop's body: the task ends. -/
def finish (p : ThreadPool n) (w : Fin n) (task : ℕ) (outcome : Outcome) : ThreadPool n :=
  { p with
    workers :=
      Function.update p.workers w (if outcome.escapes taskClauses then .died else .atLock)
    finished := p.finished ++ [task] }

/-- The first half of `shutdown`. -/
def shutdown (p : ThreadPool n) : ThreadPool n :=
  { p with stopping := true, workers := notifyAll p.workers, caller := .joining 0 }

/-- One turn of the loop in `shutdown`; `join` blocks until the worker has returned. -/
def join (p : ThreadPool n) (w : Fin n) : Option (ThreadPool n) :=
  if p.joined w then some { p with caller := .joining (w + 1) }
  else if p.workers w = .returned then
    some { p with joined := Function.update p.joined w true, caller := .joining (w + 1) }
  else none

end ThreadPool

/-- The pool after a step, if the step is possible. -/
def PoolStep.run {n : ℕ} : PoolStep n → ThreadPool n → Option (ThreadPool n)
  | submit woken, p => p.submit woken
  | check w, p => if p.workers w = .atLock then some (p.check w) else none
  | spuriousWake w, p =>
    if p.workers w = .waiting then
      some { p with workers := Function.update p.workers w .atLock }
    else none
  | finish w outcome, p =>
    match p.workers w with
    | .running task => some (p.finish w task outcome)
    | _ => none
  | shutdown, p => if p.caller = .outside then some p.shutdown else none
  | join, p =>
    match p.caller with
    | .joining i => if hi : i < n then p.join ⟨i, hi⟩ else none
    | .outside => none
  | leave, p =>
    if p.caller = .joining n then
      some { p with caller := .outside, shutdowns := p.shutdowns + 1 }
    else none

namespace ThreadPool

variable {n : ℕ} {p p' : ThreadPool n}

/-- Some workers that waited have been woken, and nothing else happened to any. -/
def Woken (before after : Fin n → Worker) : Prop :=
  ∀ w, after w = before w ∨ before w = .waiting ∧ after w = .atLock

variable {workers before after : Fin n → Worker} {w : Fin n} {woken : Option (Fin n)}

theorem woken_update (hw : workers w = .waiting) : Woken workers (Function.update workers w .atLock) := by
  intro w'
  rcases eq_or_ne w' w with rfl | hne
  · exact .inr ⟨hw, Function.update_self ..⟩
  · exact .inl (Function.update_of_ne hne ..)

theorem woken_notifyOne
    (h : mayWake workers woken = true) : Woken workers (notifyOne workers woken) := by
  cases woken with
  | none => exact fun _ => .inl rfl
  | some w => exact woken_update (of_decide_eq_true h)

/-- After `notify_one` some worker does not wait: the one it woke, or any. -/
theorem exists_awake_notifyOne (hn : 0 < n)
    (h : mayWake workers woken = true) : ∃ w, notifyOne workers woken w ≠ .waiting := by
  cases woken with
  | none => exact ⟨⟨0, hn⟩, of_decide_eq_true h ⟨0, hn⟩⟩
  | some w => exact ⟨w, by rw [notifyOne, Function.update_self]; exact nofun⟩

theorem woken_notifyAll (workers : Fin n → Worker) : Woken workers (notifyAll workers) := by
  intro w
  by_cases hw : workers w = .waiting
  · exact .inr ⟨hw, if_pos hw⟩
  · exact .inl (if_neg hw)

theorem notifyAll_ne_waiting (workers : Fin n → Worker) (w : Fin n) : notifyAll workers w ≠ .waiting := by
  unfold notifyAll
  split_ifs with hw
  · exact nofun
  · exact hw

theorem Woken.eq_of_ne {state : Worker}
    (h : Woken before after) (hw : after w = state) (hlock : state ≠ .atLock) : before w = state := by
  rcases h w with heq | ⟨-, hafter⟩
  · exact heq ▸ hw
  · exact absurd (hw.symm.trans hafter) hlock

theorem Woken.eq_of_before {state : Worker}
    (h : Woken before after) (hw : before w = state) (hwaiting : state ≠ .waiting) : after w = state := by
  rcases h w with heq | ⟨hbefore, -⟩
  · exact heq.trans hw
  · exact absurd (hw.symm.trans hbefore) hwaiting

/-- What a step can do. -/
inductive Moves : ThreadPool n → ThreadPool n → Prop
  | accept {p : ThreadPool n} {workers : Fin n → Worker} (hstopping : p.stopping = false)
      (hwoken : Woken p.workers workers) (hawake : 0 < n → ∃ w, workers w ≠ .waiting) :
      Moves p { p with
        tasks := p.tasks ++ [p.submitted]
        workers := workers
        submitted := p.submitted + 1
        accepted := p.accepted ++ [p.submitted] }
  | refuse {p : ThreadPool n} (hstopping : p.stopping = true) :
      Moves p { p with submitted := p.submitted + 1, refused := p.refused ++ [p.submitted] }
  | sleep {p : ThreadPool n} (w : Fin n) (hw : p.workers w = .atLock)
      (hstopping : p.stopping = false) (htasks : p.tasks = []) :
      Moves p { p with workers := Function.update p.workers w .waiting }
  | exit {p : ThreadPool n} (w : Fin n) (hw : p.workers w = .atLock)
      (hstopping : p.stopping = true) (htasks : p.tasks = []) :
      Moves p { p with workers := Function.update p.workers w .returned }
  | take {p : ThreadPool n} (w : Fin n) {task : ℕ} {tasks : List ℕ} (hw : p.workers w = .atLock)
      (htasks : p.tasks = task :: tasks) :
      Moves p { p with
        tasks := tasks
        workers := Function.update p.workers w (.running task)
        started := p.started ++ [task] }
  | wake {p : ThreadPool n} {workers : Fin n → Worker} (hwoken : Woken p.workers workers) :
      Moves p { p with workers := workers }
  | finish {p : ThreadPool n} (w : Fin n) {task : ℕ} (hw : p.workers w = .running task) :
      Moves p { p with
        workers := Function.update p.workers w .atLock
        finished := p.finished ++ [task] }
  | shutdown {p : ThreadPool n} {workers : Fin n → Worker} (hwoken : Woken p.workers workers)
      (hawake : ∀ w, workers w ≠ .waiting) :
      Moves p { p with stopping := true, workers := workers, caller := .joining 0 }
  | join {p : ThreadPool n} (w : Fin n) (hcaller : p.caller = .joining w)
      (hw : p.workers w = .returned) :
      Moves p { p with
        joined := Function.update p.joined w true
        caller := .joining (w + 1) }
  | skip {p : ThreadPool n} (w : Fin n) (hcaller : p.caller = .joining w)
      (hw : p.joined w = true) : Moves p { p with caller := .joining (w + 1) }
  | leave {p : ThreadPool n} (hcaller : p.caller = .joining n) :
      Moves p { p with caller := .outside, shutdowns := p.shutdowns + 1 }

theorem moves_submit (h : p.submit woken = some p') : Moves p p' := by
  unfold submit at h
  split_ifs at h with hstopping hwoken
  · cases h
    exact .refuse hstopping
  · cases h
    exact .accept (Bool.eq_false_iff.2 hstopping) (woken_notifyOne hwoken)
      fun hn => exists_awake_notifyOne hn hwoken

theorem moves_check (hw : p.workers w = .atLock) : Moves p (p.check w) := by
  unfold check
  by_cases hpredicate : p.stopping ∨ p.tasks ≠ []
  · rw [if_pos hpredicate]
    split
    · next htasks => exact .exit w hw (hpredicate.resolve_right (absurd htasks)) htasks
    · next task tasks htasks => exact .take w hw htasks
  · rw [if_neg hpredicate]
    push Not at hpredicate
    exact .sleep w hw (Bool.eq_false_iff.2 hpredicate.1) hpredicate.2

theorem moves_join (hcaller : p.caller = .joining w) (h : p.join w = some p') : Moves p p' := by
  unfold join at h
  split_ifs at h with hjoined hw
  · cases h
    exact .skip w hcaller hjoined
  · cases h
    exact .join w hcaller hw

theorem moves_of_run (a : PoolStep n) (h : a.run p = some p') : Moves p p' := by
  cases a with
  | submit woken => exact moves_submit h
  | check w =>
    obtain ⟨hw, heq⟩ := Option.ite_none_right_eq_some.1 h
    cases heq
    exact moves_check hw
  | spuriousWake w =>
    obtain ⟨hw, heq⟩ := Option.ite_none_right_eq_some.1 h
    cases heq
    exact .wake (woken_update hw)
  | finish w outcome =>
    simp only [PoolStep.run] at h
    split at h
    · next task hw =>
      cases h
      -- both clauses together take whatever was thrown
      rw [ThreadPool.finish, not_escapes_taskClauses]
      exact .finish w hw
    · cases h
  | shutdown =>
    obtain ⟨-, heq⟩ := Option.ite_none_right_eq_some.1 h
    cases heq
    exact .shutdown (woken_notifyAll _) (notifyAll_ne_waiting _)
  | join =>
    simp only [PoolStep.run] at h
    split at h
    · next i hcaller =>
      split_ifs at h with hi
      exact moves_join (w := ⟨i, hi⟩) hcaller h
    · cases h
  | leave =>
    obtain ⟨hcaller, heq⟩ := Option.ite_none_right_eq_some.1 h
    cases heq
    exact .leave hcaller

/-! ## Where every task is -/

/-- A task is accepted under its own number, and taken in the order of the queue. -/
structure Ledger (p : ThreadPool n) : Prop where
  order : p.accepted = p.started ++ p.tasks
  nodup : p.accepted.Nodup
  accepted_lt : ∀ task ∈ p.accepted, task < p.submitted
  refused_lt : ∀ task ∈ p.refused, task < p.submitted
  refused : ∀ task ∈ p.refused, task ∉ p.accepted

theorem ledger_new : Ledger ({} : ThreadPool n) := ⟨rfl, List.nodup_nil, nofun, nofun, nofun⟩

theorem Ledger.step (h : Ledger p) (hmove : Moves p p') : Ledger p' := by
  cases hmove with
  | accept hstopping hwoken hawake =>
    have hnew : p.submitted ∉ p.accepted := fun hmem => (h.accepted_lt _ hmem).false
    refine ⟨?_, ?_, ?_, ?_, ?_⟩
    · rw [h.order, List.append_assoc]
    · exact List.nodup_append.2 ⟨h.nodup, List.nodup_singleton _, by
        intro task htask other hother heq
        exact hnew (List.mem_singleton.1 hother ▸ heq ▸ htask)⟩
    · intro task htask
      rcases List.mem_append.1 htask with hold | hlast
      · exact (h.accepted_lt task hold).trans (Nat.lt_succ_self _)
      · exact List.mem_singleton.1 hlast ▸ Nat.lt_succ_self _
    · exact fun task htask => (h.refused_lt task htask).trans (Nat.lt_succ_self _)
    · intro task htask hmem
      rcases List.mem_append.1 hmem with hold | hlast
      · exact h.refused task htask hold
      · exact (h.refused_lt task htask).ne (List.mem_singleton.1 hlast)
  | refuse hstopping =>
    refine ⟨h.order, h.nodup, ?_, ?_, ?_⟩
    · exact fun task htask => (h.accepted_lt task htask).trans (Nat.lt_succ_self _)
    · intro task htask
      rcases List.mem_append.1 htask with hold | hlast
      · exact (h.refused_lt task hold).trans (Nat.lt_succ_self _)
      · exact List.mem_singleton.1 hlast ▸ Nat.lt_succ_self _
    · intro task htask hmem
      rcases List.mem_append.1 htask with hold | hlast
      · exact h.refused task hold hmem
      · exact (h.accepted_lt task hmem).ne (List.mem_singleton.1 hlast)
  | take w hw htasks =>
    refine ⟨?_, h.nodup, h.accepted_lt, h.refused_lt, h.refused⟩
    rw [h.order, htasks, List.append_cons]
  | sleep | exit | wake | finish | shutdown | join | skip | leave =>
    exact ⟨h.order, h.nodup, h.accepted_lt, h.refused_lt, h.refused⟩

theorem Ledger.started_nodup (h : Ledger p) : p.started.Nodup :=
  (h.order ▸ h.nodup).sublist (List.sublist_append_left ..)

/-- What the workers are running. -/
def running (workers : Fin n → Worker) : Multiset ℕ := ∑ w, (workers w).task

/-- A task that was started has ended, or a worker is running it. -/
def Owners (p : ThreadPool n) : Prop := p.finished + running p.workers = (p.started : Multiset ℕ)

theorem owners_new : Owners ({} : ThreadPool n) := by
  simp [Owners, running, Worker.task]

theorem running_update (workers : Fin n → Worker) (w : Fin n) (state : Worker) :
    running (Function.update workers w state) + (workers w).task = running workers + state.task := by
  have hupdate (w' : Fin n) : (Function.update workers w state w').task =
      Function.update (fun w => (workers w).task) w state.task w' :=
    Function.apply_update (fun _ => Worker.task) workers w state w'
  simp only [running, hupdate]
  rw [Finset.sum_update_of_mem (Finset.mem_univ w),
    Finset.sum_eq_add_sum_sdiff_singleton_of_mem (Finset.mem_univ w) fun w => (workers w).task]
  abel

theorem Woken.running_eq (h : Woken before after) : running after = running before := by
  refine Finset.sum_congr rfl fun w _ => ?_
  rcases h w with heq | ⟨hbefore, hafter⟩
  · rw [heq]
  · rw [hbefore, hafter]
    rfl

theorem Owners.step (h : Owners p) (hmove : Moves p p') : Owners p' := by
  unfold Owners at h ⊢
  cases hmove with
  | accept _ hwoken _ | wake hwoken | shutdown hwoken _ => rwa [hwoken.running_eq]
  | sleep w hw =>
    have hrunning := running_update p.workers w .waiting
    simp only [hw, Worker.task, Multiset.add_zero] at hrunning
    exact h ▸ congrArg _ hrunning
  | exit w hw =>
    have hrunning := running_update p.workers w .returned
    simp only [hw, Worker.task, Multiset.add_zero] at hrunning
    exact h ▸ congrArg _ hrunning
  | @take w task _ hw =>
    have hrunning := running_update p.workers w (.running task)
    simp only [hw, Worker.task, Multiset.add_zero] at hrunning
    rw [← Multiset.coe_add, ← h, Multiset.add_assoc]
    exact congrArg _ hrunning
  | finish w hw =>
    have hrunning := running_update p.workers w .atLock
    simp only [hw, Worker.task, Multiset.add_zero] at hrunning
    rw [← Multiset.coe_add, ← h, ← hrunning, Multiset.add_assoc, Multiset.add_comm (running _)]
    rfl
  | refuse | join | skip | leave => exact h

/-! ## Which worker is awake -/

/-- A task in the queue has a worker that does not wait, and after `shutdown` no
worker waits.  A worker returns only from an empty queue that stays empty. -/
structure Awake (p : ThreadPool n) : Prop where
  alive : ∀ w, p.workers w ≠ .died
  task : p.tasks ≠ [] → ∃ w, p.workers w ≠ .waiting
  stopping : p.stopping = true → ∀ w, p.workers w ≠ .waiting
  returned : ∀ w, p.workers w = .returned → p.stopping = true ∧ p.tasks = []

theorem awake_new : Awake ({} : ThreadPool n) :=
  ⟨nofun, fun h => absurd rfl h, nofun, nofun⟩

/-- The parts of the invariant about single workers, when one worker moves to a state
that it may be in. -/
theorem Awake.update (h : Awake p) (w : Fin n) (state : Worker) (hdied : state ≠ .died)
    (hwaiting : state = .waiting → p.stopping = false ∧ p.tasks = [])
    (hreturned : state = .returned → p.stopping = true ∧ p.tasks = []) :
    Awake { p with workers := Function.update p.workers w state } := by
  have hself : Function.update p.workers w state w = state := Function.update_self ..
  refine ⟨?_, ?_, ?_, ?_⟩
  · intro w'
    rcases eq_or_ne w' w with rfl | hne
    · exact hself.trans_ne hdied
    · exact (Function.update_of_ne hne ..).trans_ne (h.alive w')
  · exact fun htasks => ⟨w, hself.trans_ne fun hstate => htasks (hwaiting hstate).2⟩
  · intro hstopping w'
    rcases eq_or_ne w' w with rfl | hne
    · exact hself.trans_ne fun hstate => nomatch hstopping.symm.trans (hwaiting hstate).1
    · exact (Function.update_of_ne hne ..).trans_ne (h.stopping hstopping w')
  · intro w' hw'
    rcases eq_or_ne w' w with rfl | hne
    · exact hreturned (hself.symm.trans hw')
    · exact h.returned w' ((Function.update_of_ne hne ..).symm.trans hw')

theorem Awake.ne_waiting_of_woken
    (hwoken : Woken p.workers workers) (hw : p.workers w ≠ .waiting) : workers w ≠ .waiting :=
  fun hwaiting => hw (hwoken.eq_of_ne hwaiting nofun)

theorem Awake.alive_of_woken (h : Awake p) (hwoken : Woken p.workers workers) (w : Fin n) : workers w ≠ .died :=
  fun hdied => h.alive w (hwoken.eq_of_ne hdied nofun)

theorem Awake.take {task : ℕ} {tasks : List ℕ} (h : Awake p) (htasks : p.tasks = task :: tasks) : Awake { p with
      tasks := tasks
      workers := Function.update p.workers w (.running task)
      started := p.started ++ [task] } := by
  have hmoved := h.update w (.running task) nofun nofun nofun
  refine ⟨hmoved.alive, fun _ => ⟨w, ?_⟩, hmoved.stopping, fun w' hw' => ?_⟩
  · exact (Function.update_self ..).trans_ne nofun
  · cases htasks.symm.trans (hmoved.returned w' hw').2

theorem Awake.step (hn : 0 < n) (h : Awake p) (hmove : Moves p p') : Awake p' := by
  cases hmove with
  | accept hstopping hwoken hawake =>
    refine ⟨h.alive_of_woken hwoken, fun _ => hawake hn, ?_, ?_⟩
    · exact fun hstop => nomatch hstop.symm.trans hstopping
    · intro w hw
      have hstop := (h.returned w (hwoken.eq_of_ne hw nofun)).1
      cases hstop.symm.trans hstopping
  | sleep w hw hstopping htasks =>
    exact h.update w .waiting nofun (fun _ => ⟨hstopping, htasks⟩) nofun
  | exit w hw hstopping htasks =>
    exact h.update w .returned nofun nofun fun _ => ⟨hstopping, htasks⟩
  | take w hw htasks => exact h.take htasks
  | wake hwoken =>
    refine ⟨h.alive_of_woken hwoken, ?_, ?_, ?_⟩
    · exact fun htasks => (h.task htasks).imp fun w hw => ne_waiting_of_woken hwoken hw
    · exact fun hstop w => ne_waiting_of_woken hwoken (h.stopping hstop w)
    · exact fun w hw => h.returned w (hwoken.eq_of_ne hw nofun)
  | finish w hw =>
    have hmoved := h.update w .atLock nofun nofun nofun
    exact ⟨hmoved.alive, hmoved.task, hmoved.stopping, hmoved.returned⟩
  | shutdown hwoken hawake =>
    refine ⟨h.alive_of_woken hwoken, fun _ => ⟨⟨0, hn⟩, hawake _⟩, fun _ => hawake, ?_⟩
    exact fun w hw => ⟨rfl, (h.returned w (hwoken.eq_of_ne hw nofun)).2⟩
  | refuse | join | skip | leave => exact ⟨h.alive, h.task, h.stopping, h.returned⟩

/-! ## Which worker has been joined -/

/-- A worker that was joined has returned, and `shutdown` returns after the last. -/
structure Joined (p : ThreadPool n) : Prop where
  returned : ∀ w, p.joined w = true → p.workers w = .returned
  joining : ∀ i, p.caller = .joining i → ∀ w : Fin n, w < i → p.joined w = true
  shutdowns : 0 < p.shutdowns → ∀ w, p.joined w = true

theorem joined_new : Joined ({} : ThreadPool n) := ⟨nofun, nofun, nofun⟩

/-- A worker that has returned does not move any more. -/
theorem returned_of_moves (hmove : Moves p p') (hw : p.workers w = .returned) : p'.workers w = .returned := by
  have hupdate : ∀ {w' : Fin n} {state : Worker}, p.workers w' ≠ .returned →
      Function.update p.workers w' state w = .returned := by
    intro w' state hw'
    have hne : w ≠ w' := by
      rintro rfl
      exact hw' hw
    exact (Function.update_of_ne hne ..).trans hw
  cases hmove with
  | accept _ hwoken _ => exact hwoken.eq_of_before hw nofun
  | wake hwoken => exact hwoken.eq_of_before hw nofun
  | shutdown hwoken _ => exact hwoken.eq_of_before hw nofun
  | sleep w' hw' => exact hupdate (hw'.trans_ne nofun)
  | exit w' hw' => exact hupdate (hw'.trans_ne nofun)
  | take w' hw' => exact hupdate (hw'.trans_ne nofun)
  | finish w' hw' => exact hupdate (hw'.trans_ne nofun)
  | refuse | join | skip | leave => exact hw

theorem Joined.next {joined : Fin n → Bool} (h : Joined p)
    (hcaller : p.caller = .joining w) (hw : joined w = true)
    (hkeep : ∀ w', p.joined w' = true → joined w' = true) (i : ℕ)
    (hi : Caller.joining (w + 1) = .joining i) (w' : Fin n) (hlt : w' < i) : joined w' = true := by
  cases hi
  rcases Nat.lt_succ_iff_lt_or_eq.1 hlt with hbefore | heq
  · exact hkeep w' (h.joining w hcaller w' hbefore)
  · exact Fin.ext heq ▸ hw

theorem Joined.step (h : Joined p) (hmove : Moves p p') : Joined p' := by
  have hreturned : ∀ w, p.joined w = true → p'.workers w = .returned :=
    fun w hw => returned_of_moves hmove (h.returned w hw)
  cases hmove with
  | accept | refuse | sleep | exit | take | wake | finish =>
    exact ⟨hreturned, h.joining, h.shutdowns⟩
  | shutdown hwoken hawake =>
    refine ⟨hreturned, fun i hi w hlt => ?_, h.shutdowns⟩
    cases hi
    exact absurd hlt (Nat.not_lt_zero _)
  | join w hcaller hw =>
    have hself : Function.update p.joined w true w = true := Function.update_self ..
    have hkeep : ∀ w', p.joined w' = true → Function.update p.joined w true w' = true := by
      intro w' hw'
      rcases eq_or_ne w' w with rfl | hne
      · exact hself
      · exact (Function.update_of_ne hne ..).trans hw'
    refine ⟨?_, h.next hcaller hself hkeep, fun hpos w' => hkeep w' (h.shutdowns hpos w')⟩
    intro w' hw'
    rcases eq_or_ne w' w with rfl | hne
    · exact hw
    · exact h.returned w' ((Function.update_of_ne hne ..).symm.trans hw')
  | skip w hcaller hw =>
    exact ⟨hreturned, h.next hcaller hw fun _ => id, h.shutdowns⟩
  | leave hcaller =>
    exact ⟨hreturned, nofun, fun _ w => h.joining n hcaller w w.isLt⟩

/-! ## Every interleaving -/

/-- The invariants together. -/
structure Sound (p : ThreadPool n) : Prop where
  ledger : Ledger p
  owners : Owners p
  awake : Awake p
  joined : Joined p

theorem sound_of_runs (hn : 0 < n) {steps : List (PoolStep n)}
    (hrun : runs PoolStep.run steps {} = some p) : Sound p := by
  refine runs_induction (I := Sound) (fun a q q' h ha => ?_)
    ⟨ledger_new, owners_new, awake_new, joined_new⟩ hrun
  have hmove := moves_of_run a ha
  exact ⟨h.ledger.step hmove, h.owners.step hmove, h.awake.step hn hmove,
    h.joined.step hmove⟩

/-- When `shutdown` has returned, nothing is queued and no worker runs. -/
theorem Sound.finished_of_shutdown (h : Sound p) (hn : 0 < n) (hshutdown : 0 < p.shutdowns) :
    p.accepted = p.started ∧ p.finished.Perm p.started := by
  have hreturned : ∀ w, p.workers w = .returned :=
    fun w => h.joined.returned w (h.joined.shutdowns hshutdown w)
  have htasks : p.tasks = [] := (h.awake.returned ⟨0, hn⟩ (hreturned _)).2
  have hrunning : running p.workers = 0 := Finset.sum_eq_zero fun w _ => by rw [hreturned w]; rfl
  refine ⟨by rw [h.ledger.order, htasks, List.append_nil], Multiset.coe_eq_coe.1 ?_⟩
  rw [← h.owners, hrunning, Multiset.add_zero]

/-- **The pool runs what it accepts exactly once**, however the steps of its threads are
interleaved.  When a call of `shutdown` has returned, every task whose `submit` returned
true was started once and has ended once.  A task whose `submit` returned false is never
started, no worker dies of an exception, and the workers never all wait while there is a
task or the pool is stopping. -/
theorem pool_runs_accepted_once (hn : 0 < n) {steps : List (PoolStep n)}
    (hrun : runs PoolStep.run steps {} = some p) :
    (0 < p.shutdowns →
      ∀ task ∈ p.accepted, p.started.count task = 1 ∧ p.finished.count task = 1) ∧
      (∀ task ∈ p.refused, task ∉ p.started) ∧
      (∀ w, p.workers w ≠ .died) ∧
      ¬ ((p.tasks ≠ [] ∨ p.stopping = true) ∧ ∀ w, p.workers w = .waiting) := by
  have h := sound_of_runs hn hrun
  refine ⟨?_, ?_, h.awake.alive, ?_⟩
  · intro hshutdown task htask
    obtain ⟨haccepted, hfinished⟩ := h.finished_of_shutdown hn hshutdown
    rw [hfinished.count_eq]
    exact and_self_iff.2 (List.count_eq_one_of_mem h.ledger.started_nodup (haccepted ▸ htask))
  · intro task htask hstarted
    refine h.ledger.refused task htask ?_
    rw [h.ledger.order]
    exact List.mem_append_left _ hstarted
  · rintro ⟨hwork, hwaiting⟩
    rcases hwork with htasks | hstopping
    · obtain ⟨w, hw⟩ := h.awake.task htasks
      exact hw (hwaiting w)
    · exact h.awake.stopping hstopping ⟨0, hn⟩ (hwaiting _)

/-- Two workers, two tasks of which one throws, `shutdown` with one task still queued,
a call of `submit` after it, and `shutdown` again. -/
def twoTasks : List (PoolStep 2) :=
  [.check 0, .check 1, .submit (some 1), .spuriousWake 0, .check 1, .submit none, .shutdown,
    .submit none, .finish 1 .other, .check 0, .check 1, .finish 0 .returned, .check 0, .join, .join,
    .leave, .shutdown, .join, .join, .leave]

theorem twoTasks_runs : (runs PoolStep.run twoTasks {}).isSome = true := by
  decide +kernel

theorem twoTasks_finished :
    ∃ p : ThreadPool 2, runs PoolStep.run twoTasks {} = some p ∧
      p.accepted = [0, 1] ∧ p.refused = [2] ∧ p.shutdowns = 2 ∧
      (p.started.count 1 = 1 ∧ p.finished.count 1 = 1) ∧ 2 ∉ p.started := by
  have hrun := (Option.some_get twoTasks_runs).symm
  obtain ⟨honce, hrefused, -⟩ := pool_runs_accepted_once (by decide) hrun
  refine ⟨_, hrun, ?_, ?_, ?_, honce ?_ 1 ?_, hrefused 2 ?_⟩
  all_goals decide +kernel

end ThreadPool

end TcpIpStack
