/-
# The longest prefix

What `add` and `remove` of `src/src/route_table.cpp` make of a table, and what `lookup`
finds in it.  Networks are named by their masked address and prefix length, and a table
*stands for* a partial function from these names to hops: a call changes it at one name
(`Stands.run`).  Of two routes of one length that cover an address the networks are equal,
so the longest route is one route, and the function alone decides what is found.
-/

import TcpIpStack.Stack.Tables

namespace TcpIpStack

/-- A network: its address and the length of its prefix. -/
abbrev Network := IPv4Address × UInt8

/-- The network that a route is for. -/
def Route.network (r : Route) : Network := (r.destination, r.prefixLength)

/-- Where a route leads: the next hop, and the interface to send by. -/
def Route.hop (r : Route) : IPv4Address × ℕ := (r.nextHop, r.interfaceIndex)

theorem Route.ext_network {r r' : Route} (hnetwork : r.network = r'.network) (hhop : r.hop = r'.hop) :
    r = r' := by
  obtain ⟨destination, prefixLength, nextHop, index⟩ := r
  obtain ⟨destination', prefixLength', nextHop', index'⟩ := r'
  cases hnetwork
  cases hhop
  rfl

namespace RouteTable

/-- `remove` -/
def remove (destination : IPv4Address) (prefixLength : UInt8) (table : RouteTable) : RouteTable :=
  ⟨table.routes.eraseP fun existing =>
    existing.prefixLength = prefixLength ∧ existing.destination = masked destination prefixLength⟩

end RouteTable

/-- The calls that change a table. -/
inductive RouteStep
  | add (destination : IPv4Address) (prefixLength : UInt8) (nextHop : IPv4Address) (interfaceIndex : ℕ)
  | remove (destination : IPv4Address) (prefixLength : UInt8)

namespace RouteStep

/-- The table after the call. -/
def run : RouteStep → RouteTable → RouteTable
  | add destination prefixLength nextHop interfaceIndex =>
    RouteTable.add destination prefixLength nextHop interfaceIndex
  | remove destination prefixLength => RouteTable.remove destination prefixLength

def prefixLength : RouteStep → UInt8
  | add _ prefixLength _ _ | remove _ prefixLength => prefixLength

/-- The network that a call is about. -/
def network : RouteStep → Network
  | add destination prefixLength _ _ | remove destination prefixLength =>
    (RouteTable.masked destination prefixLength, prefixLength)

/-- Where the network leads after a call. -/
def hop : RouteStep → Option (IPv4Address × ℕ)
  | add _ _ nextHop interfaceIndex => some (nextHop, interfaceIndex)
  | remove _ _ => none

/-- What the last call for each network has left of it. -/
def last (steps : List RouteStep) : Network → Option (IPv4Address × ℕ) :=
  steps.foldl (fun f step => Function.update f step.network step.hop) fun _ => none

/-- The table after a sequence of calls. -/
def after (steps : List RouteStep) : RouteTable := steps.foldl (fun table step => step.run table) {}

end RouteStep

namespace RouteTable

/-- The routes are the values of a partial function, one for each network. -/
structure Stands (routes : List Route) (f : Network → Option (IPv4Address × ℕ)) : Prop where
  mem : ∀ r, r ∈ routes ↔ f r.network = some r.hop
  distinct : (routes.map Route.network).Nodup

section Stands

variable {routes : List Route} {f : Network → Option (IPv4Address × ℕ)}

theorem filter_network_ne {network : Network} (h : network ∉ routes.map Route.network) :
    routes.filter (fun r => decide (r.network ≠ network)) = routes :=
  List.filter_eq_self.2 fun _ hr => decide_eq_true fun heq => h (heq ▸ List.mem_map_of_mem hr)

/-- `remove` leaves the routes to the other networks. -/
theorem eraseP_eq_filter (h : (routes.map Route.network).Nodup) (network : Network) :
    routes.eraseP (fun r => r.prefixLength = network.2 ∧ r.destination = network.1) =
      routes.filter fun r => r.network ≠ network := by
  induction routes with
  | nil => rfl
  | cons existing rest ih =>
    obtain ⟨hfirst, hrest⟩ := List.nodup_cons.1 h
    by_cases hsame : existing.network = network
    · subst hsame
      rw [List.eraseP_cons_of_pos (by simp [Route.network]), List.filter_cons_of_neg (by simp),
        filter_network_ne hfirst]
    · have hne : ¬ (existing.prefixLength = network.2 ∧ existing.destination = network.1) :=
        fun hand => hsame (Prod.ext hand.2 hand.1)
      rw [List.eraseP_cons_of_neg (by simpa using hne), List.filter_cons_of_pos (by simpa using hsame),
        ih hrest]

/-- `add` leaves them too, and has its own route among them. -/
theorem replaceOrAppend_perm (h : (routes.map Route.network).Nodup) (route : Route) :
    (replaceOrAppend route routes).Perm
      (route :: routes.filter fun r => r.network ≠ route.network) := by
  induction routes with
  | nil => exact List.Perm.refl _
  | cons existing rest ih =>
    obtain ⟨hfirst, hrest⟩ := List.nodup_cons.1 h
    rw [replaceOrAppend]
    split_ifs with hsame
    · have hnetwork : existing.network = route.network := Prod.ext hsame.2 hsame.1
      rw [List.filter_cons_of_neg (by simpa using hnetwork), filter_network_ne (hnetwork ▸ hfirst)]
    · have hnetwork : existing.network ≠ route.network := fun heq =>
        hsame ⟨congrArg Prod.snd heq, congrArg Prod.fst heq⟩
      rw [List.filter_cons_of_pos (by simpa using hnetwork)]
      exact ((ih hrest).cons _).trans (List.Perm.swap ..)

theorem Stands.filter (h : Stands routes f) (network : Network) :
    Stands (routes.filter fun r => r.network ≠ network) (Function.update f network none) := by
  refine ⟨fun r => ?_, h.distinct.sublist (List.filter_sublist.map _)⟩
  rw [List.mem_filter, h.mem, Function.update_apply]
  split_ifs with hnetwork <;> simp [hnetwork]

/-- A route to a network that had none may be put in front. -/
theorem Stands.cons (h : Stands routes f) (route : Route) (hnew : f route.network = none) :
    Stands (route :: routes) (Function.update f route.network (some route.hop)) := by
  constructor
  · intro r
    rw [List.mem_cons, h.mem, Function.update_apply]
    split_ifs with hnetwork
    · rw [hnetwork, hnew]
      exact ⟨fun hr => hr.elim (fun heq => heq ▸ rfl) nofun,
        fun hhop => .inl (Route.ext_network hnetwork (Option.some.inj hhop).symm)⟩
    · exact or_iff_right fun heq => hnetwork (heq ▸ rfl)
  · refine List.nodup_cons.2 ⟨fun hin => ?_, h.distinct⟩
    obtain ⟨r, hr, hnetwork⟩ := List.mem_map.1 hin
    rw [h.mem, hnetwork, hnew] at hr
    cases hr

end Stands

/-- **A call changes the function at the network it is about.** -/
theorem Stands.run {table : RouteTable} {f : Network → Option (IPv4Address × ℕ)}
    (h : Stands table.routes f) (step : RouteStep) (hlengths : step.prefixLength ≤ 32) :
    Stands (step.run table).routes (Function.update f step.network step.hop) := by
  cases step with
  | add destination prefixLength nextHop index =>
    let route : Route := ⟨masked destination prefixLength, prefixLength, nextHop, index⟩
    have hperm := replaceOrAppend_perm h.distinct route
    have hcons := (h.filter route.network).cons route (Function.update_self ..)
    rw [Function.update_idem] at hcons
    have hlengths : ¬ 32 < prefixLength := UInt8.not_lt.2 hlengths
    simp only [RouteStep.run, RouteTable.add, if_neg hlengths]
    exact ⟨fun r => hperm.mem_iff.trans (hcons.mem r), (hperm.map _).nodup_iff.2 hcons.distinct⟩
  | remove destination prefixLength =>
    have hfilter := h.filter (masked destination prefixLength, prefixLength)
    rw [← eraseP_eq_filter h.distinct] at hfilter
    exact hfilter

/-- Names of networks are masked, whatever was called. -/
def Masked (f : Network → Option (IPv4Address × ℕ)) : Prop :=
  ∀ network, f network ≠ none → masked network.1 network.2 = network.1

theorem masked_masked (ip : IPv4Address) (prefixLength : UInt8) :
    masked (masked ip prefixLength) prefixLength = masked ip prefixLength := by
  simp only [masked, UInt32.and_assoc, UInt32.and_self]

theorem Masked.update {f : Network → Option (IPv4Address × ℕ)} (h : Masked f)
    (step : RouteStep) : Masked (Function.update f step.network step.hop) := by
  intro network hsome
  rw [Function.update_apply] at hsome
  split_ifs at hsome with heq
  · subst heq
    cases step <;> exact masked_masked _ _
  · exact h network hsome

/-- After any calls the table stands for what the last call for each network has left. -/
theorem stands_after {steps : List RouteStep} (hlengths : ∀ step ∈ steps, step.prefixLength ≤ 32) :
    Stands (RouteStep.after steps).routes (RouteStep.last steps) ∧ Masked (RouteStep.last steps) := by
  induction steps using List.reverseRecOn with
  | nil => exact ⟨⟨by simp [RouteStep.after, RouteStep.last], List.nodup_nil⟩, nofun⟩
  | append_singleton steps step ih =>
    obtain ⟨hsteps, hstep⟩ := List.forall_mem_append.1 hlengths
    obtain ⟨hstands, hmasked⟩ := ih hsteps
    simp only [RouteStep.after, RouteStep.last, List.foldl_append, List.foldl_cons, List.foldl_nil]
    exact ⟨hstands.run step (hstep step (List.mem_singleton_self _)), hmasked.update step⟩

variable {destination : IPv4Address}

/-- Routes of one length that cover an address are to one network. -/
theorem Covers.network_eq {r r' : Route} (h : Covers destination r)
    (h' : Covers destination r') (hlength : r.prefixLength = r'.prefixLength) :
    r.network = r'.network := by
  refine Prod.ext ?_ hlength
  have hvalue : r.destination.value = r'.destination.value := by
    rw [← show _ = r.destination.value from h, ← show _ = r'.destination.value from h', hlength]
  exact congrArg IPv4Address.mk hvalue

/-- There is one longest route: every other one that covers the address is shorter. -/
theorem Longest.lt {routes : List Route} {f : Network → Option (IPv4Address × ℕ)}
    (hstands : Stands routes f) {r r' : Route}
    (h : Longest destination routes r) (hmem : r' ∈ routes) (hcovers : Covers destination r')
    (hne : r' ≠ r) : r'.prefixLength < r.prefixLength := by
  refine UInt8.lt_of_le_of_ne (h.longest r' hmem hcovers) fun hlength => hne ?_
  have hnetwork := hcovers.network_eq h.covers hlength
  have hhop := (hstands.mem r').1 hmem
  rw [hnetwork, (hstands.mem r).1 h.mem] at hhop
  exact Route.ext_network hnetwork (Option.some.inj hhop).symm

/-- At most one route is longest, as no two share a network. -/
theorem best_eq_some_iff {table : RouteTable} {f : Network → Option (IPv4Address × ℕ)}
    (h : Stands table.routes f) {r : Route} :
    table.best destination = some r ↔ Longest destination table.routes r := by
  refine ⟨longest_of_best.2 r, fun hr => ?_⟩
  cases hbest : table.best destination with
  | none => exact absurd hr.covers (longest_of_best.1 hbest r hr.mem)
  | some r' =>
    have hr' := longest_of_best.2 r' hbest
    by_contra hne
    have hlt := hr.lt h hr'.mem hr'.covers fun heq => hne (heq ▸ rfl)
    exact UInt8.not_le.2 hlt (hr'.longest r hr.mem hr.covers)

/-- What is found depends on the function alone. -/
theorem best_congr {table table' : RouteTable} {f : Network → Option (IPv4Address × ℕ)}
    (h : Stands table.routes f) (h' : Stands table'.routes f) (destination : IPv4Address) :
    table.best destination = table'.best destination := by
  have hmem : ∀ r, r ∈ table.routes ↔ r ∈ table'.routes := fun r => (h.mem r).trans (h'.mem r).symm
  refine Option.ext fun r => (best_eq_some_iff h).trans (Iff.trans ?_ (best_eq_some_iff h').symm)
  exact ⟨fun hr => ⟨(hmem r).1 hr.mem, hr.covers, fun r' hr' => hr.longest r' ((hmem r').2 hr')⟩,
    fun hr => ⟨(hmem r).2 hr.mem, hr.covers, fun r' hr' => hr.longest r' ((hmem r').1 hr')⟩⟩

/-- **Longest-prefix match.**  After any calls the networks of the routes are distinct and
masked; a lookup fails exactly if no network contains the address, and otherwise leads by the
one route whose prefix is longer than that of every other; and it depends on nothing but the
last call for each network. -/
theorem lookup_longest_match (steps : List RouteStep)
    (hlengths : ∀ step ∈ steps, step.prefixLength ≤ 32) :
    ((RouteStep.after steps).routes.map Route.network).Nodup ∧
    (∀ r ∈ (RouteStep.after steps).routes, masked r.destination r.prefixLength = r.destination) ∧
    (∀ destination, ((RouteStep.after steps).lookup destination = none ↔
      ∀ r ∈ (RouteStep.after steps).routes, masked destination r.prefixLength ≠ r.destination) ∧
      ∀ found, (RouteStep.after steps).lookup destination = some found →
        ∃ r ∈ (RouteStep.after steps).routes, masked destination r.prefixLength = r.destination ∧
          found = (if r.nextHop = {} then destination else r.nextHop, r.interfaceIndex) ∧
          ∀ r' ∈ (RouteStep.after steps).routes, masked destination r'.prefixLength = r'.destination →
            r' ≠ r → r'.prefixLength < r.prefixLength) ∧
    ∀ steps', (∀ step ∈ steps', step.prefixLength ≤ 32) → RouteStep.last steps' = RouteStep.last steps →
      ∀ destination, (RouteStep.after steps').lookup destination =
        (RouteStep.after steps).lookup destination := by
  obtain ⟨hstands, hmasked⟩ := stands_after hlengths
  have hcovers : ∀ destination (r : Route),
      masked destination r.prefixLength = r.destination ↔ Covers destination r := fun destination r =>
    ⟨congrArg IPv4Address.value, congrArg IPv4Address.mk⟩
  refine ⟨hstands.distinct, fun r hr => hmasked r.network ?_, fun destination => ⟨?_, ?_⟩, ?_⟩
  · rw [(hstands.mem r).1 hr]
    nofun
  · simp only [lookup, Option.map_eq_none_iff, ne_eq, hcovers]
    refine ⟨longest_of_best.1, fun hno => Option.eq_none_iff_forall_ne_some.2 fun r hbest => ?_⟩
    have hr := longest_of_best.2 r hbest
    exact hno r hr.mem hr.covers
  · intro found hfound
    obtain ⟨r, hbest, rfl⟩ := Option.map_eq_some_iff.1 hfound
    have hr := longest_of_best.2 r hbest
    exact ⟨r, hr.mem, (hcovers destination r).2 hr.covers, rfl,
      fun r' hmem hin hne => hr.lt hstands hmem ((hcovers destination r').1 hin) hne⟩
  · intro steps' hlengths' hlast destination
    have hstands' := (stands_after hlengths').1
    rw [hlast] at hstands'
    rw [lookup, lookup, best_congr hstands' hstands]

/-- A network inside another, and the route to it removed. -/
theorem lookup_longest_match_nested :
    (RouteStep.after [.add ⟨0x0A000000⟩ 8 ⟨0x0A000001⟩ 0, .add ⟨0x0A010000⟩ 16 {} 1,
      .remove ⟨0x0A010000⟩ 16]).lookup ⟨0x0A010203⟩ =
      (RouteStep.after [.add ⟨0x0A000000⟩ 8 ⟨0x0A000001⟩ 0]).lookup ⟨0x0A010203⟩ := by
  refine (lookup_longest_match [.add ⟨0x0A000000⟩ 8 ⟨0x0A000001⟩ 0] (by decide)).2.2.2 _ (by decide) ?_ _
  funext network
  simp only [RouteStep.last, RouteStep.network, RouteStep.hop, List.foldl_cons, List.foldl_nil,
    Function.update_apply]
  split_ifs <;> simp_all

end RouteTable

end TcpIpStack
