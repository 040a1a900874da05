/-
# What a receiver reports

A SACK report lists the runs of sequence numbers that the reorder buffer holds.
The source walks the buffer in the order of its keys, joins what touches, puts
the run of the latest arrival first, and cuts the list to what the option has
room for.  Keys are compared as plain numbers.

A payload is kept only if its number is plainly above `RCV.NXT`, so the keys are
in the order of the sequence space after all; what can go wrong is a run that
ends at the wrap or beyond, whose upper bound is then a small number and which is
not found when the latest arrival is looked for.  For payloads that end below the
wrap, and do not run into each other, `sack_report_sound` is what RFC 2018 asks
for.
-/

import TcpIpStack.Lib.Intervals
import TcpIpStack.Tcp.ReorderBuffer

namespace TcpIpStack

open TcpConnection Session Runs Spans

/-- A sequence number of the block. -/
abbrev SackBlock.Names (b : SackBlock) : UInt32 → Prop := Covers b.start (b.stop - b.start).toNat

/-- A sequence number the reorder buffer holds. -/
def TcpConnection.Buffered (c : TcpConnection) (q : UInt32) : Prop :=
  ∃ entry ∈ c.reorderBuffer.entries, Holds entry q

/-! ### No entry reaches the wrap -/

namespace Inbox

/-- The entries end below the wrap. -/
def Below (i : Inbox) : Prop :=
  ∀ e ∈ i.reorderBuffer.entries, i.recvNext.toNat + i.distance e + e.2.length < 2 ^ 32

section Below

variable {i j : Inbox} {payload : Bytes} {seq : UInt32} {e : UInt32 × Bytes}

theorem Below.toNat_eq (h : i.Below) (he : e ∈ i.reorderBuffer.entries) :
    e.1.toNat = i.recvNext.toNat + i.distance e := by
  have hbelow := h e he
  have hlt := e.1.toNat_lt
  have hnext := i.recvNext.toNat_lt
  unfold distance at hbelow ⊢
  rw [UInt32.toNat_sub] at hbelow ⊢
  omega

theorem Below.advance (h : i.Below) {n : ℕ} (hnext : j.recvNext = i.recvNext + UInt32.ofNat n)
    (hstays : ∀ e ∈ j.reorderBuffer.entries, e ∈ i.reorderBuffer.entries ∧ n ≤ i.distance e) : j.Below := by
  intro e he
  obtain ⟨hmem, hle⟩ := hstays e he
  have hbelow := h e hmem
  have hn : (UInt32.ofNat n).toNat = n := UInt32.toNat_ofNat_of_lt' (show n < 2 ^ 32 by omega)
  have hmoved : j.recvNext.toNat = i.recvNext.toNat + n := by
    rw [hnext, UInt32.toNat_add, hn]
    exact Nat.mod_eq_of_lt (by omega)
  have hdistance : j.distance e = i.distance e - n := by
    rw [distance, hnext, toNat_sub_add hle]
    rfl
  omega

/-- In-order data moves `RCV.NXT` up to an entry at most. -/
theorem Tidy.deliverAndDrain_advance (h : i.Tidy)
    (hfree : ∀ e ∈ i.reorderBuffer.entries, ¬ Collide e (i.recvNext, payload)) :
    ∃ n, (i.deliverAndDrain payload).recvNext = i.recvNext + UInt32.ofNat n ∧
      ∀ e ∈ (i.deliverAndDrain payload).reorderBuffer.entries,
        e ∈ i.reorderBuffer.entries ∧ n ≤ i.distance e := by
  obtain ⟨hlaid, hdistance⟩ := h.deliver hfree
  obtain ⟨-, d, hnext, hstays, -⟩ := hlaid.drain i.reorderBuffer.entries.length
  refine ⟨payload.length + d, ?_, fun e he => ?_⟩
  · rw [Inbox.deliverAndDrain, hnext, UInt32.ofNat_add, ← UInt32.add_assoc]
    rfl
  · obtain ⟨hmem, hle⟩ := hstays e he
    obtain ⟨hlong, hsub⟩ := hdistance e hmem
    exact ⟨hmem, by omega⟩

theorem Below.keep (h : i.Below) (hgt : seq > i.recvNext) (hends : seq.toNat + payload.length < 2 ^ 32) :
    (i.keep seq payload).Below := by
  unfold Inbox.keep
  split_ifs
  · intro e he
    rcases OrderedMap.mem_insert he with rfl | hmem
    · show i.recvNext.toNat + (seq - i.recvNext).toNat + payload.length < 2 ^ 32
      rw [UInt32.toNat_sub_of_le _ _ (UInt32.le_of_lt hgt)]
      have hlt := UInt32.lt_iff_toNat_lt.1 hgt
      omega
    · exact h e hmem
  · exact h

theorem Below.store (h : i.Below) (htidy : i.Tidy) (hlen : payload.length ≤ maxPayload)
    (hclear : i.Clear seq payload) (hends : seq > i.recvNext → seq.toNat + payload.length < 2 ^ 32) :
    (i.store seq payload).Below := by
  unfold Inbox.store
  split_ifs with heq hgt hnew
  · obtain ⟨n, hnext, hstays⟩ := htidy.deliverAndDrain_advance (htidy.free_inOrder hclear heq)
    exact h.advance hnext hstays
  · exact h.keep hgt (hends hgt)
  · obtain ⟨n, hnext, hstays⟩ := htidy.deliverAndDrain_advance (htidy.free_tail hlen hclear heq hgt hnew)
    exact h.advance hnext hstays
  · exact h

theorem Below.congr (h : i.Below) (hnext : j.recvNext = i.recvNext)
    (hbuffer : j.reorderBuffer = i.reorderBuffer) : j.Below := by
  have hdistance (e) : j.distance e = i.distance e := by rw [distance, distance, hnext]
  unfold Below
  simp only [hbuffer, hdistance, hnext]
  exact h

theorem Below.arrive (h : i.Below) (htidy : i.Tidy) {t : Tcp} {receives fin : Bool}
    (hlen : t.payload.length ≤ maxPayload) (hclear : receives → i.Clear t.sequenceNumber t.payload)
    (hends : receives → t.sequenceNumber > i.recvNext →
      t.sequenceNumber.toNat + t.payload.length < 2 ^ 32) : (i.arrive t receives fin).Below := by
  obtain ⟨-, -, hbuffer, hnext⟩ := stamp_same t i
  have hstamped : (i.stamp t).Tidy := htidy.congr hnext hbuffer
  have hpayload : (i.arrive t receives false).Below ∧ (i.arrive t receives false).Tidy := by
    refine ⟨?_, htidy.arrive hlen hclear nofun nofun⟩
    unfold Inbox.arrive
    dsimp only
    rw [if_neg Bool.false_ne_true]
    split_ifs with hreceives
    · refine (h.congr hnext hbuffer).store hstamped hlen ?_ ?_
      · rw [Clear, hbuffer]
        exact hclear hreceives.1
      · rw [hnext]
        exact hends hreceives.1
    · exact h.congr hnext hbuffer
  cases fin with
  | false => exact hpayload.1
  | true =>
    refine hpayload.1.advance (j := (i.arrive t receives false).pastFin) (n := 1) rfl fun e he => ?_
    exact ⟨he, hpayload.2.waits e he⟩

end Below

end Inbox

/-! ### The runs -/

/-- The plain numbers of an entry, and of a block. -/
def entryInterval (entry : UInt32 × Bytes) : ℕ × ℕ := (entry.1.toNat, entry.1.toNat + entry.2.length)

def SackBlock.interval (b : SackBlock) : ℕ × ℕ := (b.start.toNat, b.stop.toNat)

/-- The runs of the buffer, in the order of the walk. -/
def TcpConnection.sackRuns (c : TcpConnection) : List SackBlock := c.reorderBuffer.entries.foldl pushBlock []

section Runs

variable {c : TcpConnection} {entry : UInt32 × Bytes} {b : SackBlock} {blocks : List SackBlock} {q : UInt32}

theorem interval_pushBlock (h : entry.1.toNat + entry.2.length < 2 ^ 32) (blocks : List SackBlock) :
    (pushBlock blocks entry).map SackBlock.interval =
      Intervals.push (blocks.map SackBlock.interval) (entryInterval entry) := by
  have hstop : (entry.1 + UInt32.ofNat entry.2.length).toNat = entry.1.toNat + entry.2.length := by
    rw [UInt32.toNat_add, UInt32.toNat_ofNat_of_lt' (show entry.2.length < 2 ^ 32 by omega)]
    exact Nat.mod_eq_of_lt h
  unfold pushBlock
  dsimp only
  rcases List.eq_nil_or_concat' blocks with rfl | ⟨init, last, rfl⟩
  · simp [SackBlock.interval, entryInterval, hstop]
  · rw [List.getLast?_concat, List.dropLast_concat, List.map_append, List.map_singleton,
      Intervals.push_concat]
    have hiff : last.interval.2 = (entryInterval entry).1 ↔ last.stop = entry.1 := UInt32.toNat_inj
    dsimp only
    simp only [hiff]
    split_ifs <;> simp [SackBlock.interval, entryInterval, hstop]

theorem interval_foldl_pushBlock {l : List (UInt32 × Bytes)} (h : ∀ e ∈ l, e.1.toNat + e.2.length < 2 ^ 32)
    (blocks : List SackBlock) : (l.foldl pushBlock blocks).map SackBlock.interval =
      (l.map entryInterval).foldl Intervals.push (blocks.map SackBlock.interval) := by
  induction l generalizing blocks with
  | nil => rfl
  | cons e l ih =>
    obtain ⟨he, hl⟩ := List.forall_mem_cons.1 h
    rw [List.foldl_cons, ih hl, interval_pushBlock he, List.map_cons, List.foldl_cons]

theorem holds_iff_contains (h : entry.1.toNat + entry.2.length < 2 ^ 32) :
    Holds entry q ↔ Intervals.Contains (entryInterval entry) q.toNat := by
  have hiff := covers_iff (q := q) (s := entry.1) 0 (m := entry.2.length) (by rw [UInt32.sub_zero]; omega)
  rwa [UInt32.sub_zero, UInt32.sub_zero] at hiff

theorem names_iff_contains (h : b.interval.1 < b.interval.2) :
    b.Names q ↔ Intervals.Contains b.interval q.toNat := by
  have hsize : (b.stop - b.start).toNat = b.stop.toNat - b.start.toNat :=
    UInt32.toNat_sub_of_le _ _ (UInt32.le_iff_toNat_le.2 h.le)
  have hlt := b.stop.toNat_lt
  have hbounds : b.start.toNat < b.stop.toNat := h
  have hiff := covers_iff (q := q) (s := b.start) 0 (m := (b.stop - b.start).toNat)
    (by rw [UInt32.sub_zero, hsize]; omega)
  rw [UInt32.sub_zero, UInt32.sub_zero, hsize, Nat.add_sub_cancel' hbounds.le] at hiff
  rw [SackBlock.Names, hsize]
  exact hiff

/-- **The runs are the maximal runs.** -/
theorem sackRuns_spec (htidy : c.inbox.Tidy) (hbelow : c.inbox.Below) :
    Intervals.Apart (c.sackRuns.map SackBlock.interval) ∧
      ∀ n, (∃ r ∈ c.sackRuns.map SackBlock.interval, Intervals.Contains r n) ↔
        ∃ entry ∈ c.reorderBuffer.entries, Intervals.Contains (entryInterval entry) n := by
  have hends : ∀ e ∈ c.reorderBuffer.entries, e.1.toNat + e.2.length < 2 ^ 32 := by
    intro e he
    have hplain := hbelow.toNat_eq he
    have hlt := hbelow e he
    omega
  have hproper : ∀ a ∈ c.reorderBuffer.entries.map entryInterval, a.1 < a.2 := by
    intro a ha
    obtain ⟨e, he, rfl⟩ := List.mem_map.1 ha
    exact Nat.lt_add_of_pos_right (htidy.sized e he).1
  have hordered : (c.reorderBuffer.entries.map entryInterval).Pairwise fun a a' => a.2 ≤ a'.1 := by
    refine List.pairwise_map.2 (c.reorderBuffer.sorted.imp_of_mem fun {e e'} he he' hlt => ?_)
    have hplain := hbelow.toNat_eq he
    have hplain' := hbelow.toNat_eq he'
    have hless := UInt32.lt_iff_toNat_lt.1 hlt
    have hapart := htidy.apart e he e' he' (by omega)
    show e.1.toNat + e.2.length ≤ e'.1.toNat
    omega
  have hruns : c.sackRuns.map SackBlock.interval =
      (c.reorderBuffer.entries.map entryInterval).foldl Intervals.push [] :=
    interval_foldl_pushBlock hends []
  obtain ⟨hapart, hcovers⟩ := Intervals.foldl_push hproper hordered
  rw [hruns]
  refine ⟨hapart, fun n => (hcovers n).trans ?_⟩
  simp only [List.mem_map, exists_exists_and_eq_and]

/-! ### The order of the report -/

theorem swapToFront_perm (blocks : List SackBlock) (i : ℕ) : (swapToFront blocks i).Perm blocks := by
  unfold swapToFront
  split
  · next first chosen hfirst hchosen =>
    obtain ⟨h₀, rfl⟩ := List.getElem?_eq_some_iff.1 hfirst
    obtain ⟨hi, rfl⟩ := List.getElem?_eq_some_iff.1 hchosen
    exact List.set_set_perm h₀ hi
  · exact List.Perm.refl _

theorem head?_swapToFront {i : ℕ} (h : i < blocks.length) : (swapToFront blocks i).head? = blocks[i]? := by
  unfold swapToFront
  have h₀ : 0 < blocks.length := by omega
  rw [List.getElem?_eq_getElem h₀, List.getElem?_eq_getElem h]
  dsimp only
  rw [List.head?_eq_getElem?, List.getElem?_set]
  split_ifs with hi hlen
  · subst hi
    rfl
  · subst hi
    exact absurd (by simpa using h) hlen
  · rw [List.getElem?_set_self h₀]

theorem mostRecentFirst_perm (recent : UInt32) (blocks : List SackBlock) :
    (mostRecentFirst recent blocks).Perm blocks := by
  unfold mostRecentFirst
  split
  · exact swapToFront_perm ..
  · exact List.Perm.refl _

/-- The block that is found goes first. -/
theorem head?_mostRecentFirst {recent : UInt32} (h : ∃ b ∈ blocks, Intervals.Contains b.interval recent.toNat) :
    ∃ first, (mostRecentFirst recent blocks).head? = some first ∧
      Intervals.Contains first.interval recent.toNat := by
  have hiff (b : SackBlock) : (b.start ≤ recent && recent < b.stop) = true ↔
      Intervals.Contains b.interval recent.toNat := by
    rw [Bool.and_eq_true, decide_eq_true_eq, decide_eq_true_eq, UInt32.le_iff_toNat_le, UInt32.lt_iff_toNat_lt]
    rfl
  unfold mostRecentFirst
  split
  · next i hfind =>
    obtain ⟨hi, hp, -⟩ := List.findIdx?_eq_some_iff_getElem.1 hfind
    exact ⟨blocks[i], by rw [head?_swapToFront hi, List.getElem?_eq_getElem hi], (hiff _).1 hp⟩
  · next hnone =>
    obtain ⟨b, hb, hcontains⟩ := h
    have hfalse := List.findIdx?_eq_none_iff.1 hnone b hb
    rw [(hiff b).2 hcontains] at hfalse
    cases hfalse

end Runs

/-! ### The report -/

/-- What RFC 2018 asks of a report. -/
structure SoundReport (c : TcpConnection) (blocks : List SackBlock) : Prop where
  reported : c.reorderBuffer.entries ≠ [] → blocks ≠ []
  disjoint : blocks.Pairwise fun b b' => ∀ q, b.Names q → ¬ b'.Names q
  nonAdjacent : blocks.Pairwise fun b b' => b.stop ≠ b'.start ∧ b'.stop ≠ b.start
  /-- Every block is a maximal run. -/
  run : ∀ b ∈ blocks, b.start ≠ b.stop ∧ (∀ q, b.Names q → c.Buffered q) ∧
    ¬ c.Buffered (b.start - 1) ∧ ¬ c.Buffered b.stop
  ahead : ∀ b ∈ blocks, ∀ q, b.Names q →
    0 < (q - c.recvNext).toNat ∧ (q - c.recvNext).toNat < 2 ^ 31
  count : blocks.length ≤ if c.timestampsNegotiated then 3 else 4
  mostRecent : ∀ payload, c.reorderBuffer.find? c.lastOutOfOrderSeq = some payload →
    ∃ first, blocks.head? = some first ∧ ∀ q, Holds (c.lastOutOfOrderSeq, payload) q → first.Names q

section Report

variable {c : TcpConnection} {b b' : SackBlock} {q : UInt32}

theorem disjoint_of_separate (hb : b.interval.1 < b.interval.2) (hb' : b'.interval.1 < b'.interval.2)
    (h : Intervals.Separate b.interval b'.interval) :
    (∀ q, b.Names q → ¬ b'.Names q) ∧ b.stop ≠ b'.start ∧ b'.stop ≠ b.start := by
  refine ⟨fun q hq hq' => ?_, fun heq => ?_, fun heq => ?_⟩
  · rw [names_iff_contains hb] at hq
    rw [names_iff_contains hb'] at hq'
    obtain ⟨hlow, hhigh⟩ := hq
    obtain ⟨hlow', hhigh'⟩ := hq'
    rcases h with h | h <;> omega
  · have hmeet : b.interval.2 = b'.interval.1 := congrArg UInt32.toNat heq
    rcases h with h | h <;> omega
  · have hmeet : b'.interval.2 = b.interval.1 := congrArg UInt32.toNat heq
    rcases h with h | h <;> omega

/-- The runs as the report arranges them. -/
def TcpConnection.arrangedRuns (c : TcpConnection) : List SackBlock :=
  if c.sackRuns.length > 1 then mostRecentFirst c.lastOutOfOrderSeq c.sackRuns else c.sackRuns

theorem sackBlocksToReport_eq (c : TcpConnection) : c.sackBlocksToReport = c.arrangedRuns.take
    (if c.timestampsNegotiated then Tcp.maxSackBlocksWithTimestamp else Tcp.maxSackBlocks) := rfl

theorem arrangedRuns_perm (c : TcpConnection) : c.arrangedRuns.Perm c.sackRuns := by
  unfold arrangedRuns
  split_ifs
  · exact mostRecentFirst_perm ..
  · exact List.Perm.refl _

theorem mem_sackRuns_of_reported (h : b ∈ c.sackBlocksToReport) : b ∈ c.sackRuns :=
  (arrangedRuns_perm c).mem_iff.1 (List.mem_of_mem_take h)

theorem head?_take_arranged (c : TcpConnection) : c.sackBlocksToReport.head? = c.arrangedRuns.head? := by
  rw [sackBlocksToReport_eq, List.head?_take, if_neg]
  split_ifs <;> decide

variable (htidy : c.inbox.Tidy) (hbelow : c.inbox.Below)

include htidy hbelow

theorem sackRuns_proper (hb : b ∈ c.sackRuns) : b.interval.1 < b.interval.2 :=
  (sackRuns_spec htidy hbelow).1.proper _ (List.mem_map_of_mem hb)

theorem buffered_iff : c.Buffered q ↔ ∃ b ∈ c.sackRuns, Intervals.Contains b.interval q.toNat := by
  have hcovers := (sackRuns_spec htidy hbelow).2 q.toNat
  simp only [List.mem_map, exists_exists_and_eq_and] at hcovers
  rw [hcovers, Buffered]
  refine exists_congr fun entry => and_congr_right fun he => holds_iff_contains ?_
  have hplain := hbelow.toNat_eq he
  have hlt := hbelow entry he
  omega

theorem sackRun_maximal (hb : b ∈ c.sackRuns) : b.start ≠ b.stop ∧ (∀ q, b.Names q → c.Buffered q) ∧
    ¬ c.Buffered (b.start - 1) ∧ ¬ c.Buffered b.stop := by
  have hproper := sackRuns_proper htidy hbelow hb
  obtain ⟨hapart, -⟩ := sackRuns_spec htidy hbelow
  have hmem := List.mem_map_of_mem (f := SackBlock.interval) hb
  have hnames : ∀ q, b.Names q → c.Buffered q := fun q hq =>
    (buffered_iff htidy hbelow).2 ⟨b, hb, (names_iff_contains hproper).1 hq⟩
  refine ⟨fun heq => ?_, hnames, fun hbuffered => ?_, fun hbuffered => ?_⟩
  · exact absurd (congrArg UInt32.toNat heq) hproper.ne
  · -- the number before a run that starts above zero
    have hpos : 0 < b.start.toNat := by
      obtain ⟨entry, he, hholds⟩ := hnames b.start
        ((names_iff_contains hproper).2 ⟨le_rfl, hproper⟩)
      have hwaits := htidy.waits entry he
      have hplain := hbelow.toNat_eq he
      have hlt := hbelow entry he
      have hcontains := (holds_iff_contains (by omega)).1 hholds
      have hlow : entry.1.toNat ≤ b.start.toNat := hcontains.1
      omega
    have hone : (b.start - 1).toNat + 1 = b.start.toNat := by
      have hle : (1 : UInt32) ≤ b.start := UInt32.le_iff_toNat_le.2 hpos
      rw [UInt32.toNat_sub_of_le _ _ hle]
      exact Nat.sub_add_cancel hpos
    obtain ⟨b', hb', hcontains⟩ := (buffered_iff htidy hbelow).1 hbuffered
    exact Intervals.not_contains_before hapart.proper hapart.separate hmem
      (Nat.covBy_iff_add_one_eq.2 hone) (List.mem_map_of_mem hb') hcontains
  · obtain ⟨b', hb', hcontains⟩ := (buffered_iff htidy hbelow).1 hbuffered
    exact Intervals.not_contains_stop hapart.proper hapart.separate hmem (List.mem_map_of_mem hb') hcontains

/-- The run of a sequence number that is the latest arrival's goes first. -/
theorem head?_arrangedRuns (h : c.Buffered c.lastOutOfOrderSeq) :
    ∃ first ∈ c.sackRuns, c.arrangedRuns.head? = some first ∧
      Intervals.Contains first.interval c.lastOutOfOrderSeq.toNat := by
  have hruns := (buffered_iff htidy hbelow).1 h
  have hhead : ∃ first, c.arrangedRuns.head? = some first ∧
      Intervals.Contains first.interval c.lastOutOfOrderSeq.toNat := by
    unfold arrangedRuns
    split_ifs with hmany
    · exact head?_mostRecentFirst hruns
    · obtain ⟨b, hb, hcontains⟩ := hruns
      have hlength : c.sackRuns.length = 1 := by
        have := List.length_pos_of_mem hb
        omega
      obtain ⟨only, honly⟩ := List.length_eq_one_iff.1 hlength
      rw [honly, List.mem_singleton] at hb
      exact ⟨only, by rw [honly]; rfl, hb ▸ hcontains⟩
  obtain ⟨first, hfirst, hcontains⟩ := hhead
  exact ⟨first, (arrangedRuns_perm c).mem_iff.1 (List.mem_of_head? hfirst), hfirst, hcontains⟩

/-- And it has all of that arrival. -/
theorem mostRecent_first {payload : Bytes} (h : c.reorderBuffer.find? c.lastOutOfOrderSeq = some payload) :
    ∃ first, c.sackBlocksToReport.head? = some first ∧
      ∀ q, Holds (c.lastOutOfOrderSeq, payload) q → first.Names q := by
  have hmem := OrderedMap.mem_of_find? h
  have hstart : Holds (c.lastOutOfOrderSeq, payload) c.lastOutOfOrderSeq :=
    covers_start (htidy.sized _ hmem).1
  obtain ⟨first, hfirst, hhead, hcontains⟩ := head?_arrangedRuns htidy hbelow ⟨_, hmem, hstart⟩
  obtain ⟨hapart, hcovers⟩ := sackRuns_spec htidy hbelow
  have hends : c.lastOutOfOrderSeq.toNat + payload.length < 2 ^ 32 := by
    have hplain : c.lastOutOfOrderSeq.toNat = _ := hbelow.toNat_eq hmem
    have hlt := hbelow _ hmem
    dsimp only at hlt
    omega
  have hstop : c.lastOutOfOrderSeq.toNat + payload.length ≤ first.interval.2 := by
    refine Intervals.le_stop_of_covered hapart.proper hapart.separate (List.mem_map_of_mem hfirst) hcontains
      fun n hlow hhigh => (hcovers n).2 ⟨_, hmem, hlow, hhigh⟩
  refine ⟨first, (head?_take_arranged c).trans hhead, fun q hq => ?_⟩
  obtain ⟨hlow, hhigh⟩ := (holds_iff_contains hends).1 hq
  exact (names_iff_contains (sackRuns_proper htidy hbelow hfirst)).2
    ⟨hcontains.1.trans hlow, lt_of_lt_of_le hhigh hstop⟩

theorem soundReport : SoundReport c c.sackBlocksToReport := by
  obtain ⟨hapart, -⟩ := sackRuns_spec htidy hbelow
  have hproper : ∀ b ∈ c.sackBlocksToReport, b.interval.1 < b.interval.2 := fun b hb =>
    sackRuns_proper htidy hbelow (mem_sackRuns_of_reported hb)
  have hseparate : c.sackBlocksToReport.Pairwise fun b b' =>
      Intervals.Separate b.interval b'.interval := by
    have hruns := (List.pairwise_map.1 hapart.separate).perm (arrangedRuns_perm c).symm Or.symm
    exact hruns.sublist (List.take_sublist ..)
  have hnothing : c.sackBlocksToReport.Pairwise fun b b' =>
      (∀ q, b.Names q → ¬ b'.Names q) ∧ b.stop ≠ b'.start ∧ b'.stop ≠ b.start :=
    hseparate.imp_of_mem fun hb hb' h => disjoint_of_separate (hproper _ hb) (hproper _ hb') h
  refine ⟨fun hne => ?_, hnothing.imp And.left, hnothing.imp And.right, fun b hb => ?_, fun b hb q hq => ?_, ?_,
    fun payload h => mostRecent_first htidy hbelow h⟩
  · -- a buffer with something in it has a run
    obtain ⟨entry, he⟩ := List.exists_mem_of_ne_nil _ hne
    obtain ⟨b, hb, -⟩ := (buffered_iff htidy hbelow).1
      ⟨entry, he, covers_start (s := entry.1) (htidy.sized entry he).1⟩
    intro hnil
    have hhead := head?_take_arranged c
    rw [hnil, List.head?_nil, eq_comm, List.head?_eq_none_iff] at hhead
    have hb' := (arrangedRuns_perm c).mem_iff.2 hb
    rw [hhead] at hb'
    exact absurd hb' List.not_mem_nil
  · exact sackRun_maximal htidy hbelow (mem_sackRuns_of_reported hb)
  · obtain ⟨entry, he, hholds⟩ :=
      (sackRun_maximal htidy hbelow (mem_sackRuns_of_reported hb)).2.1 q hq
    exact (reorderBuffer_of_tidy htidy).undelivered entry he q hholds
  · rw [sackBlocksToReport_eq]
    refine (List.length_take_le ..).trans (le_of_eq ?_)
    split_ifs <;> rfl

end Report

/-! ### Every run -/

/-- A payload that is kept also ends below the wrap. -/
def Event.reportable : Event → Session → Prop
  | .segment t, x => (Event.segment t).fitsBuffer x ∧
    (receivesData x.conn.state → t.sequenceNumber > x.conn.recvNext →
      t.sequenceNumber.toNat + t.payload.length < 2 ^ 32)
  | _, _ => True

instance (e : Event) (x : Session) : Decidable (e.reportable x) :=
  match e with
  | .segment _ => inferInstanceAs (Decidable (_ ∧ _))
  | .timePassed _ | .send _ | .read _ | .close | .setKeepalive _ | .reduceEffectiveMss _ | .fail =>
    isTrue trivial

/-- The latest arrival is remembered: an event either buffers nothing and leaves
it, or buffers a segment and notes that one. -/
def NotesArrival (e : Event) (c c' : TcpConnection) : Prop :=
  c'.lastOutOfOrderSeq = c.lastOutOfOrderSeq ∧
      (∀ entry ∈ c'.reorderBuffer.entries, entry ∈ c.reorderBuffer.entries) ∨
    ∃ t, e = .segment t ∧ c'.lastOutOfOrderSeq = t.sequenceNumber ∧
      c'.reorderBuffer.find? t.sequenceNumber = some t.payload

section Events

variable {e : Event} {x y : Session}

theorem Event.fitsBuffer_of_reportable (h : e.reportable x) : e.fitsBuffer x := by
  cases e with
  | segment t => exact h.1
  | timePassed | send | read | close | setKeepalive | reduceEffectiveMss | fail => trivial

theorem below_run (h : x.conn.inbox.Below) (htidy : x.conn.inbox.Tidy)
    (hsyn : x.conn.state = .synSent → x.conn.reorderBuffer.entries = []) (hok : e.reportable x)
    (he : e.run x = some y) : y.conn.inbox.Below := by
  have hmove := Event.run_inbox he
  generalize y.conn.inbox = i at hmove ⊢
  cases hmove with
  | same => exact h
  | tick => exact h.congr rfl rfl
  | establish t ht hstate =>
    have hempty : (recordSynAck t x.conn).inbox.reorderBuffer.entries = [] := hsyn hstate
    unfold Inbox.Below
    rw [hempty]
    exact fun _ hmem => absurd hmem List.not_mem_nil
  | arrive t fin ht =>
    subst ht
    exact h.arrive htidy hok.1.1 hok.1.2.1 hok.2
  | take => exact h.congr rfl rfl

theorem lastOutOfOrderSeq_drain (fuel : ℕ) (i : Inbox) :
    (i.drain fuel).lastOutOfOrderSeq = i.lastOutOfOrderSeq := by
  induction fuel generalizing i with
  | zero => rfl
  | succ fuel ih =>
    rw [Inbox.drain]
    split
    · rfl
    · exact ih _

theorem store_notes (seq : UInt32) (payload : Bytes) (i : Inbox) :
    (i.store seq payload).lastOutOfOrderSeq = i.lastOutOfOrderSeq ∧
        (∀ entry ∈ (i.store seq payload).reorderBuffer.entries, entry ∈ i.reorderBuffer.entries) ∨
      (i.store seq payload).lastOutOfOrderSeq = seq ∧
        (i.store seq payload).reorderBuffer.find? seq = some payload := by
  unfold Inbox.store
  split_ifs
  · exact .inl ⟨lastOutOfOrderSeq_drain _ (i.deliver payload), fun entry => Inbox.mem_drain _⟩
  · unfold Inbox.keep
    split_ifs
    · exact .inr ⟨rfl, by rw [OrderedMap.find?_insert, if_pos rfl]⟩
    · exact .inl ⟨rfl, fun _ => id⟩
  · exact .inl ⟨lastOutOfOrderSeq_drain _ (i.deliver _), fun entry => Inbox.mem_drain _⟩
  · exact .inl ⟨rfl, fun _ => id⟩

theorem notesArrival_run (he : e.run x = some y) : NotesArrival e x.conn y.conn := by
  have hmove := Event.run_inbox he
  have hsuffices (i : Inbox) (hmove : InboxMove e x i) :
      i.lastOutOfOrderSeq = x.conn.lastOutOfOrderSeq ∧
          (∀ entry ∈ i.reorderBuffer.entries, entry ∈ x.conn.reorderBuffer.entries) ∨
        ∃ t, e = .segment t ∧ i.lastOutOfOrderSeq = t.sequenceNumber ∧
          i.reorderBuffer.find? t.sequenceNumber = some t.payload := by
    cases hmove with
    | same | tick | establish | take => exact .inl ⟨rfl, fun _ => id⟩
    | arrive t fin ht =>
      have hlast : (x.conn.inbox.stamp t).lastOutOfOrderSeq = x.conn.lastOutOfOrderSeq := by
        unfold Inbox.stamp
        split
        · split_ifs <;> rfl
        · rfl
      have hbuffer : (x.conn.inbox.stamp t).reorderBuffer = x.conn.reorderBuffer :=
        (Inbox.stamp_same t x.conn.inbox).2.2.1
      have hstored := store_notes t.sequenceNumber t.payload (x.conn.inbox.stamp t)
      rw [hlast, hbuffer] at hstored
      unfold Inbox.arrive
      dsimp only
      split_ifs
      · exact hstored.imp_right fun h => ⟨t, ht, h⟩
      · exact .inl ⟨hlast, fun entry => hbuffer ▸ id⟩
      · exact hstored.imp_right fun h => ⟨t, ht, h⟩
      · exact .inl ⟨hlast, fun entry => hbuffer ▸ id⟩
  exact hsuffices _ hmove

end Events

/-- **SACK reports are sound**, for every peer whose payloads run into no entry
that starts elsewhere and end below the wrap when they are ahead of `RCV.NXT`. -/
theorem sack_report_sound (o : Opener) (localPort remotePort : UInt16) (initialSeq : UInt32)
    (localMss : UInt16) (algorithm : CongestionControlAlgorithm) (events : List Event) {y : Session}
    (hok : Along Event.run Event.reportable events
      (o.run (.fresh localPort remotePort initialSeq localMss algorithm)))
    (h : runs Event.run events (o.run (.fresh localPort remotePort initialSeq localMss algorithm)) =
      some y) :
    SoundReport y.conn y.conn.sackBlocksToReport ∧
      ∀ e z, e.run y = some z → NotesArrival e y.conn z.conn := by
  have hempty : (o.run (.fresh localPort remotePort initialSeq localMss algorithm)).conn.reorderBuffer.entries =
      [] := by
    cases o <;> rfl
  have hbelow : (o.run (.fresh localPort remotePort initialSeq localMss algorithm)).conn.inbox.Below := by
    unfold Inbox.Below
    rw [show (o.run _).conn.inbox.reorderBuffer.entries = [] from hempty]
    exact fun _ he => absurd he List.not_mem_nil
  have hinvariant : (y.conn.inbox.Tidy ∧ y.conn.inbox.Below) ∧
      (y.conn.state = .synSent → y.conn.reorderBuffer.entries = []) :=
    runs_invariant
      (I := fun x => (x.conn.inbox.Tidy ∧ x.conn.inbox.Below) ∧
        (x.conn.state = .synSent → x.conn.reorderBuffer.entries = []))
      (fun _ _ _ hx hreportable he =>
        ⟨⟨tidy_run hx.1.1 hx.2 (Event.fitsBuffer_of_reportable hreportable) he,
          below_run hx.1.2 hx.1.1 hx.2 hreportable he⟩, empty_run hx.2 he⟩)
      ⟨⟨Inbox.tidy_of_empty hempty, hbelow⟩, fun _ => hempty⟩ hok h
  exact ⟨soundReport hinvariant.1.1 hinvariant.1.2, fun e z he => notesArrival_run he⟩

/-- Of three runs the one in the middle arrived last. -/
theorem sack_report_three_runs :
    ∃ y, runs Event.run [.segment (Tcp.ofFlags 9000 80 8 101 5 flagAck 8 0 0),
          .segment ((Tcp.ofFlags 9000 80 10 101 5 flagAck 8 0 0).carrying [3, 4]),
          .segment ((Tcp.ofFlags 9000 80 20 101 5 flagAck 8 0 0).carrying [9]),
          .segment ((Tcp.ofFlags 9000 80 12 101 5 flagAck 8 0 0).carrying [5]),
          .segment ((Tcp.ofFlags 9000 80 15 101 5 flagAck 8 0 0).carrying [7, 8])]
        ((Opener.passive { peerIsn := 7, peerPermitsSack := true }).run (.fresh 80 9000 100 4 .reno)) =
          some y ∧
      y.conn.sackBlocksToReport = [⟨15, 17⟩, ⟨10, 13⟩, ⟨20, 21⟩] ∧
      SoundReport y.conn y.conn.sackBlocksToReport :=
  ⟨_, (Option.some_get (by decide +kernel)).symm, by decide +kernel,
    (sack_report_sound _ _ _ _ _ _ _ (by decide +kernel) (Option.some_get _).symm).1⟩

/-- The peer starts 16 below the wrap.  The latest arrival ends at the wrap, and
the report begins with the earlier one.  And away from the wrap, two payloads
that run into each other are reported as two blocks that do. -/
theorem sack_report_unsound :
    (∃ y, runs Event.run [.segment (Tcp.ofFlags 9000 80 4294967280 101 5 flagAck 8 0 0),
          .segment ((Tcp.ofFlags 9000 80 4294967284 101 5 flagAck 8 0 0).carrying [5, 6]),
          .segment ((Tcp.ofFlags 9000 80 4294967292 101 5 flagAck 8 0 0).carrying [13, 14, 15, 16])]
        ((Opener.passive { peerIsn := 4294967279, peerPermitsSack := true }).run
          (.fresh 80 9000 100 4 .reno)) = some y ∧
      y.conn.lastOutOfOrderSeq = 4294967292 ∧
      y.conn.sackBlocksToReport = [⟨4294967284, 4294967286⟩, ⟨4294967292, 0⟩] ∧
      ¬ SoundReport y.conn y.conn.sackBlocksToReport) ∧
    ∃ y, runs Event.run [.segment (Tcp.ofFlags 9000 80 8 101 5 flagAck 8 0 0),
          .segment ((Tcp.ofFlags 9000 80 10 101 5 flagAck 8 0 0).carrying [3, 4]),
          .segment ((Tcp.ofFlags 9000 80 11 101 5 flagAck 8 0 0).carrying [4, 5])]
        ((Opener.passive { peerIsn := 7, peerPermitsSack := true }).run (.fresh 80 9000 100 4 .reno)) =
          some y ∧
      y.conn.sackBlocksToReport = [⟨10, 12⟩, ⟨11, 13⟩] ∧
      ¬ SoundReport y.conn y.conn.sackBlocksToReport := by
  constructor
  · refine ⟨_, rfl, by decide +kernel, by decide +kernel, fun h => ?_⟩
    obtain ⟨first, hfirst, hholds⟩ := h.mostRecent [13, 14, 15, 16] (by decide +kernel)
    obtain rfl : (⟨4294967284, 4294967286⟩ : SackBlock) = first :=
      Option.some.inj ((show _ = _ by decide +kernel : some _ = List.head? _).trans hfirst)
    exact absurd (hholds 4294967292 (by decide +kernel)) (by decide)
  · refine ⟨_, rfl, ?_⟩
    generalize hblocks : TcpConnection.sackBlocksToReport _ = blocks
    obtain rfl : blocks = [⟨10, 12⟩, ⟨11, 13⟩] := hblocks.symm.trans (by decide +kernel)
    exact ⟨rfl, fun h => List.pairwise_pair.1 h.disjoint 11 (by decide) (by decide)⟩

end TcpIpStack
