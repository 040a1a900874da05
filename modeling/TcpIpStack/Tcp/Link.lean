/-
# Two connections and a perfect link

The two sides are joined by two channels that lose nothing, duplicate nothing
and keep the order: what reaches a side next is the oldest segment of the other
side that has not reached it yet.  The run begins when the passive side has
accepted the SYN, which is the first segment of the active one; the rest of the
handshake and everything after it comes by delivery.
-/

import TcpIpStack.Tcp.System

namespace TcpIpStack

open Session Runs

def Side.other : Side → Side
  | .a => .b
  | .b => .a

/-- Two sides, and how many of the other side's segments have reached each. -/
structure Link where
  a : Session
  b : Session
  arrivedA : ℕ
  arrivedB : ℕ

/-- What can happen next: the oldest segment in transit reaches `side`, or
something happens at one side alone. -/
inductive LinkAction
  | deliver (side : Side)
  | act (side : Side) (e : Event)

/-- The side something happens at. -/
def LinkAction.side : LinkAction → Side
  | .deliver side => side
  | .act side _ => side

namespace Link

def session (l : Link) : Side → Session
  | .a => l.a
  | .b => l.b

def arrived (l : Link) : Side → ℕ
  | .a => l.arrivedA
  | .b => l.arrivedB

/-- The session of one side is replaced. -/
def put (side : Side) (x : Session) (l : Link) : Link :=
  match side with
  | .a => { l with a := x }
  | .b => { l with b := x }

/-- One more segment has reached the side. -/
def count (side : Side) (l : Link) : Link :=
  match side with
  | .a => { l with arrivedA := l.arrivedA + 1 }
  | .b => { l with arrivedB := l.arrivedB + 1 }

/-- The oldest segment in transit to `side`. -/
def pending (side : Side) (l : Link) : Option Call := (l.session side.other).sent[l.arrived side]?

/-- Delivery is in order, once each, and loses nothing; nothing else brings a segment. -/
def step : LinkAction → Link → Option Link
  | .deliver side, l => (l.pending side).map fun call =>
    (l.put side ((l.session side).onSegment call.segment)).count side
  | .act side e, l =>
    if e.isSegment then none else (e.run (l.session side)).map fun x => l.put side x

/-- Side `b` has accepted the SYN of side `a`, with whatever options it read off
it. -/
def opening (portA portB : UInt16) (isnA isnB : UInt32) (mssA mssB : UInt16)
    (algorithmA algorithmB : CongestionControlAlgorithm) (options : SynOptions) : Link where
  a := (Session.fresh portA portB isnA mssA algorithmA).initiateConnect
  b := (Session.fresh portB portA isnB mssB algorithmB).acceptIncomingSyn
    { options with peerIsn := isnA }
  arrivedA := 0
  arrivedB := 1

section Step

variable {l l' : Link} {side side' : Side} {x : Session} {action : LinkAction}

@[simp] theorem session_put_self : (l.put side x).session side = x := by
  cases side <;> rfl

@[simp] theorem session_put_other : (l.put side x).session side.other = l.session side.other := by
  cases side <;> rfl

@[simp] theorem session_count : (l.count side').session side = l.session side := by
  cases side' <;> cases side <;> rfl

/-- **A step is an event at one side**: a segment in transit to it, or something
of its own. -/
theorem step_cases (h : Link.step action l = some l') :
    ∃ e : Event, e.run (l.session action.side) = some (l'.session action.side) ∧
      l'.session action.side.other = l.session action.side.other ∧
      ((∃ call, action = .deliver action.side ∧ l.pending action.side = some call ∧
          e = .segment call.segment) ∨
        action = .act action.side e ∧ e.isSegment = false) := by
  cases action with
  | deliver side =>
    obtain ⟨call, hcall, rfl⟩ := Option.map_eq_some_iff.1 h
    refine ⟨.segment call.segment, ?_, by simp [LinkAction.side], .inl ⟨call, rfl, hcall, rfl⟩⟩
    simp [LinkAction.side, Event.run]
  | act side e =>
    simp only [step, Option.ite_none_left_eq_some] at h
    obtain ⟨hsegment, hrun⟩ := h
    obtain ⟨y, hy, rfl⟩ := Option.map_eq_some_iff.1 hrun
    refine ⟨e, ?_, by simp [LinkAction.side], .inr ⟨rfl, by simpa using hsegment⟩⟩
    simpa [LinkAction.side] using hy

/-- Both sides are as required. -/
def Both (I : Side → Session → Prop) (l : Link) : Prop := I .a l.a ∧ I .b l.b

theorem both_iff {I : Side → Session → Prop} : l.Both I ↔ ∀ side, I side (l.session side) :=
  ⟨fun h side => by cases side; exacts [h.1, h.2], fun h => ⟨h .a, h .b⟩⟩

theorem both_of_step {I : Side → Session → Prop} (h : Link.step action l = some l') (hl : l.Both I)
    (hside : I action.side (l'.session action.side)) : l'.Both I := by
  obtain ⟨e, -, hother, -⟩ := step_cases h
  rw [both_iff] at hl ⊢
  intro side
  by_cases heq : side = action.side
  · exact heq ▸ hside
  · have hside' : side = action.side.other := by
      cases side <;> cases hs : action.side <;> simp_all [Side.other]
    rw [hside', hother, ← hside']
    exact hl side

end Step

end Link

end TcpIpStack
