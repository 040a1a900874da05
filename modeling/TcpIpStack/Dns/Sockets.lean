/-
# The sockets behind the resolver

`_ensure_dns_resolver` in `src/src/network_stack.cpp` gives the resolver its two callbacks.
To send a query it calls `bind_udp` on the port that was drawn, sets the callback of the
socket it gets, and sends; to release a port it calls `unbind_udp`.  `bind_udp` returns the
socket that is bound already if there is one, and the resolver draws its ports without
looking: a port that the application has bound can be drawn.

What the resolver does to ports, one after the other, is `PortTrace`.  As long as no port is
drawn that the application has bound, and the application binds no port a query is pending
on, the two never meet (`apart_step`).
-/

import TcpIpStack.Dns.Moves
import TcpIpStack.Lib.Assoc

namespace TcpIpStack

/-- Who is called when a datagram arrives at a socket. -/
inductive Receiver
  | application (callback : ℕ)
  | resolver
deriving DecidableEq

/-- `UdpSocket`: which object it is, and its received-datagram callback. -/
structure UdpSocket where
  identity : ℕ
  callback : Option Receiver := none
deriving DecidableEq

/-- The part of a `NetworkStack` that holds sockets and the resolver.  `owned` has the sockets
that the application has bound and not unbound, as it left them. -/
structure SocketHost where
  sockets : Assoc UInt16 UdpSocket := ∅
  created : ℕ := 0
  resolver : DnsResolver
  owned : Assoc UInt16 UdpSocket := ∅
  /-- The callbacks of the application that were called, with the port. -/
  received : List (UInt16 × ℕ) := []

namespace SocketHost

def new (seed : UInt32) (servers : List IPv4Address) : SocketHost where
  resolver := .new seed servers

/-- `bind_udp` -/
def bindUdp (h : SocketHost) (port : UInt16) : SocketHost × UdpSocket :=
  match h.sockets.lookup port with
  | some socket => (h, socket)
  | none =>
    let socket : UdpSocket := { identity := h.created }
    ({ h with sockets := h.sockets.insert port socket, created := h.created + 1 }, socket)

/-- `unbind_udp` -/
def unbindUdp (h : SocketHost) (port : UInt16) : SocketHost :=
  { h with sockets := h.sockets.erase port }

/-- `set_datagram_received_callback` of the socket on a port. -/
def setCallback (h : SocketHost) (port : UInt16) (socket : UdpSocket) (receiver : Receiver) :
    SocketHost :=
  { h with sockets := h.sockets.insert port { socket with callback := some receiver } }

/-- The send callback and the release callback of the resolver. -/
def perform (h : SocketHost) : DnsEffect → SocketHost
  | .send _ port _ _ =>
    let (h, socket) := h.bindUdp port
    h.setCallback port socket .resolver
  | .release port => h.unbindUdp port
  | _ => h

/-- What the resolver did in a step is performed. -/
def after (h : SocketHost) (r : DnsResolver) : SocketHost :=
  (r.effects.drop h.resolver.effects.length).foldl perform { h with resolver := r }

end SocketHost

/-- What happens to a host.  A `DnsStep.datagram` comes only out of a socket. -/
inductive HostStep
  | bind (port : UInt16)
  | unbind (port : UInt16)
  | setCallback (port : UInt16) (callback : ℕ)
  | arrives (source : IPv4Address) (sourcePort port : UInt16) (payload : Bytes)
  | resolver (step : DnsStep)

/-- The step of the resolver in a step of the host. -/
def HostStep.dnsStep : HostStep → SocketHost → Option DnsStep
  | resolver (.datagram ..), _ => none
  | resolver step, _ => some step
  | arrives source sourcePort port payload, h =>
    match h.sockets.lookup port with
    | some ⟨_, some .resolver⟩ => some (.datagram source sourcePort port payload)
    | _ => none
  | _, _ => none

/-- The host after a step, if the step is possible. -/
def HostStep.run : HostStep → SocketHost → Option SocketHost
  | bind port, h =>
    let (h, socket) := h.bindUdp port
    some { h with owned := h.owned.insert port socket }
  | unbind port, h => some { h.unbindUdp port with owned := h.owned.erase port }
  | setCallback port callback, h =>
    -- only through the pointer that `bind_udp` returned, while the object lives
    match h.owned.lookup port, h.sockets.lookup port with
    | some mine, some socket =>
      if socket.identity = mine.identity then
        some { h.setCallback port socket (.application callback) with
          owned := h.owned.insert port { socket with callback := some (.application callback) } }
      else none
    | _, _ => none
  | arrives source sourcePort port payload, h =>
    match h.sockets.lookup port with
    | some ⟨_, some (.application callback)⟩ =>
      some { h with received := h.received ++ [(port, callback)] }
    | some ⟨_, some .resolver⟩ =>
      ((DnsStep.datagram source sourcePort port payload).run h.resolver).map h.after
    | _ => some h
  | resolver (.datagram ..), _ => none
  | resolver step, h => (step.run h.resolver).map h.after

namespace SocketHost

/-! ### What the resolver does to ports -/

/-- Ports are taken when they are free, used while they are taken, and released. -/
inductive PortTrace : Set UInt16 → List DnsEffect → Set UInt16 → Prop
  | nil (ports : Set UInt16) : PortTrace ports [] ports
  | take {port : UInt16} {ports ports' : Set UInt16} {effects : List DnsEffect}
      (hrest : PortTrace (insert port ports) effects ports') :
      PortTrace ports (.take port :: effects) ports'
  | send {server : IPv4Address} {port : UInt16} {payload : Bytes} {opener : ℕ}
      {ports ports' : Set UInt16} {effects : List DnsEffect} (hport : port ∈ ports)
      (hrest : PortTrace ports effects ports') :
      PortTrace ports (.send server port payload opener :: effects) ports'
  | release {port : UInt16} {ports ports' : Set UInt16} {effects : List DnsEffect}
      (hport : port ∈ ports) (hrest : PortTrace (ports \ {port}) effects ports') :
      PortTrace ports (.release port :: effects) ports'
  | other {effect : DnsEffect} {ports ports' : Set UInt16} {effects : List DnsEffect}
      (heffect : effect = .threw ∨ ∃ callback name addresses,
        effect = .resolved callback name addresses)
      (hrest : PortTrace ports effects ports') : PortTrace ports (effect :: effects) ports'

theorem portTrace_sent {query : PendingQuery} {sent : List DnsEffect} {ports : Set UInt16}
    (hsent : DnsResolver.Sent query sent) (hport : query.sourcePort ∈ ports) : PortTrace ports sent ports := by
  rcases hsent with rfl | ⟨server, payload, rfl⟩
  · exact .nil ports
  · exact .send hport (.nil ports)

section Trace

open DnsResolver

variable {r t : DnsResolver}

/-- What a step of the resolver does outside is a trace of its ports. -/
def Traced (r t : DnsResolver) : Prop :=
  ∃ effects, t.effects = r.effects ++ effects ∧ PortTrace r.pending.keys effects t.pending.keys

theorem traced_of_quiet (heffects : t.effects = r.effects) (hkeys : t.pending.keys = r.pending.keys) :
    Traced r t :=
  ⟨[], heffects.trans (List.append_nil _).symm, hkeys ▸ .nil _⟩

theorem trace_enterQuery (name : Bytes) (depth : ℕ) (callbacks : List ℕ) (opener : ℕ) (caught : Bool)
    (idEntropy : UInt32) (draw : UInt32 × Option UInt16) :
    Traced r (r.enterQuery name depth callbacks opener caught idEntropy draw) := by
  rcases r.enterQuery_cases name depth callbacks opener caught idEntropy draw with
    heq | ⟨port, sent, outOfRange, -, hsent, heq⟩
  · rw [heq]
    exact ⟨_, rfl, .other (.inl rfl) (.nil _)⟩
  · rw [heq]
    refine ⟨_, rfl, .take ?_⟩
    dsimp only
    rw [OrderedMap.keys_insert]
    exact portTrace_sent hsent (Set.mem_insert _ _)

/-- **What a step does to ports.** -/
theorem traced_move (h : Entered r) (hmove : DnsMove r t) : Traced r t := by
  cases hmove with
  | joined hfind =>
    refine traced_of_quiet rfl ?_
    dsimp only
    rw [OrderedMap.keys_insert, Set.insert_eq_of_mem (OrderedMap.mem_keys_of_find? hfind)]
  | opened => exact trace_enterQuery (r := { r with resolves := r.resolves + 1 }) ..
  | @resent rest port query query' hidle hfind hretried =>
    have hport : query'.sourcePort = port := by
      have hquery := (h _ (OrderedMap.mem_of_find? hfind)).port
      rcases hretried with ⟨rfl, -⟩ | ⟨rfl, -⟩
      · exact hquery
      · exact hquery
    obtain ⟨sent, outOfRange, hsent, heq⟩ := sendQuery_cases { r with agenda := rest } port query'
    have hkeys := OrderedMap.mem_keys_of_find? hfind
    rw [heq]
    refine ⟨sent, rfl, ?_⟩
    dsimp only
    rw [OrderedMap.keys_insert, Set.insert_eq_of_mem hkeys]
    exact portTrace_sent hsent (hport ▸ hkeys)
  | finished cache addresses hidle hfind =>
    have hport := (h _ (OrderedMap.mem_of_find? hfind)).port
    refine ⟨_, rfl, .release ?_ ?_⟩
    · exact hport ▸ OrderedMap.mem_keys_of_find? hfind
    · rw [← OrderedMap.keys_erase]
      exact .nil _
  | @chased port query name idEntropy draw hfind =>
    obtain ⟨effects, heq, htrace⟩ := trace_enterQuery (r := r.release port) name (query.cnameDepth + 1)
      query.callbacks query.opener false idEntropy draw
    refine ⟨.release port :: effects, heq.trans (List.append_assoc ..),
      .release (OrderedMap.mem_keys_of_find? hfind) ?_⟩
    rw [← OrderedMap.keys_erase]
    exact htrace
  | aged elapsedMs => exact traced_of_quiet rfl (OrderedMap.keys_mapValues ..)
  | called => exact ⟨_, rfl, .other (.inr ⟨_, _, _, rfl⟩) (.nil _)⟩
  | _ => exact traced_of_quiet rfl rfl

theorem traced_step {step : DnsStep} (h : Entered r) (ht : step.run r = some t) : Traced r t := by
  rcases move_run ht with ⟨servers, rfl, rfl⟩ | hmove
  · exact traced_of_quiet rfl rfl
  · exact traced_move h hmove

end Trace

/-- The socket that `bind_udp` returns is the one on the port; nothing else changes. -/
theorem lookup_bindUdp (h : SocketHost) (port port' : UInt16) : (h.bindUdp port).1.sockets.lookup port' =
      if port' = port then some (h.bindUdp port).2 else h.sockets.lookup port' := by
  unfold bindUdp
  cases hport : h.sockets.lookup port with
  | some socket =>
    dsimp only
    split_ifs with heq
    · rw [heq, hport]
    · rfl
  | none => exact Assoc.lookup_insert_eq ..

theorem bindUdp_owned (h : SocketHost) (port : UInt16) : (h.bindUdp port).1.owned = h.owned := by
  unfold bindUdp
  split <;> rfl

theorem bindUdp_resolver (h : SocketHost) (port : UInt16) : (h.bindUdp port).1.resolver = h.resolver := by
  unfold bindUdp
  split <;> rfl

/-! ### The two never meet -/

/-- The application's sockets are where it left them and no query is pending on their ports;
the resolver's sockets are on ports of pending queries. -/
structure Apart (sockets owned : Assoc UInt16 UdpSocket) (ports : Set UInt16) : Prop where
  mine : ∀ port socket, owned.lookup port = some socket →
    sockets.lookup port = some socket ∧ port ∉ ports
  theirs : ∀ port socket, sockets.lookup port = some socket →
    socket.callback = some .resolver → port ∈ ports

section Perform

variable {h : SocketHost} {ports : Set UInt16}

theorem apart_send (hapart : Apart h.sockets h.owned ports) {server : IPv4Address} {port : UInt16}
    {payload : Bytes} {opener : ℕ} (hport : port ∈ ports) :
    Apart (h.perform (.send server port payload opener)).sockets h.owned ports := by
  have hlookup : ∀ port', (h.perform (.send server port payload opener)).sockets.lookup port' =
      if port' = port then some { (h.bindUdp port).2 with callback := some .resolver }
      else h.sockets.lookup port' := by
    intro port'
    change ((h.bindUdp port).1.sockets.insert port _).lookup port' = _
    rw [Assoc.lookup_insert_eq, lookup_bindUdp]
    split_ifs <;> rfl
  constructor
  · intro port' socket' hmine
    obtain ⟨hsocket, hfree⟩ := hapart.mine port' socket' hmine
    have hne : port' ≠ port := fun heq => hfree (heq.symm ▸ hport)
    refine ⟨?_, hfree⟩
    rw [hlookup, if_neg hne, hsocket]
  · intro port' socket' hsocket' hresolver
    rw [hlookup] at hsocket'
    split_ifs at hsocket' with heq
    · exact heq ▸ hport
    · exact hapart.theirs port' socket' hsocket' hresolver

theorem apart_release (hapart : Apart h.sockets h.owned ports) {port : UInt16} (hport : port ∈ ports) :
    Apart (h.perform (.release port)).sockets h.owned (ports \ {port}) := by
  constructor
  · intro port' socket' hmine
    obtain ⟨hsocket, hfree⟩ := hapart.mine port' socket' hmine
    have hne : port' ≠ port := fun heq => hfree (heq.symm ▸ hport)
    refine ⟨?_, fun hmem => hfree hmem.1⟩
    rw [perform, unbindUdp, Assoc.lookup_erase_eq, if_neg hne, hsocket]
  · intro port' socket' hsocket' hresolver
    obtain ⟨hne, hsocket'⟩ := Assoc.lookup_of_erase hsocket'
    exact ⟨hapart.theirs port' socket' hsocket' hresolver, hne⟩

theorem perform_owned (h : SocketHost) (effect : DnsEffect) : (h.perform effect).owned = h.owned := by
  cases effect with
  | send server port payload opener => exact bindUdp_owned h port
  | _ => rfl

theorem perform_resolver (h : SocketHost) (effect : DnsEffect) : (h.perform effect).resolver = h.resolver := by
  cases effect with
  | send server port payload opener => exact bindUdp_resolver h port
  | _ => rfl

/-- The trace of a step is performed, and no port of the application is taken in it. -/
theorem apart_trace {effects : List DnsEffect} {ports' : Set UInt16}
    (htrace : PortTrace ports effects ports') (hapart : Apart h.sockets h.owned ports)
    (htakes : ∀ port, .take port ∈ effects → h.owned.lookup port = none) :
    Apart (effects.foldl perform h).sockets (effects.foldl perform h).owned ports' ∧
      (effects.foldl perform h).owned = h.owned ∧
      (effects.foldl perform h).resolver = h.resolver := by
  induction htrace generalizing h with
  | nil ports => exact ⟨hapart, rfl, rfl⟩
  | @take port ports ports' effects _ ih =>
    refine ih ⟨fun port' socket hmine => ?_, fun port' socket hsocket hresolver =>
      .inr (hapart.theirs port' socket hsocket hresolver)⟩
      fun port' hport' => htakes port' (List.mem_cons_of_mem _ hport')
    obtain ⟨hsocket, hfree⟩ := hapart.mine port' socket hmine
    refine ⟨hsocket, fun hmem => hmem.elim (fun heq => ?_) hfree⟩
    have hnone := htakes port List.mem_cons_self
    rw [← heq] at hnone
    cases hmine.symm.trans hnone
  | @send server port payload opener ports ports' effects hport _ ih =>
    rw [List.foldl_cons]
    have howned := perform_owned h (.send server port payload opener)
    obtain ⟨hrest, hsame, hresolver⟩ := ih (h := h.perform (.send server port payload opener))
      (howned ▸ apart_send hapart hport)
      fun port' hport' => howned ▸ htakes port' (List.mem_cons_of_mem _ hport')
    exact ⟨hrest, hsame.trans howned, hresolver.trans (perform_resolver ..)⟩
  | @release port ports ports' effects hport _ ih =>
    exact ih (h := h.perform (.release port)) (apart_release hapart hport)
      fun port' hport' => htakes port' (List.mem_cons_of_mem _ hport')
  | @other effect ports ports' effects heffect _ ih =>
    have hsame : h.perform effect = h := by
      rcases heffect with rfl | ⟨_, _, _, rfl⟩ <;> rfl
    rw [List.foldl_cons, hsame]
    exact ih hapart fun port' hport' => htakes port' (List.mem_cons_of_mem _ hport')

end Perform

/-! ### Runs -/

/-- The ports that the resolver takes in a step of the host. -/
def taken (step : HostStep) (h : SocketHost) : List UInt16 :=
  match (step.dnsStep h).bind (·.run h.resolver) with
  | some r => (r.effects.drop h.resolver.effects.length).filterMap fun effect =>
      match effect with
      | .take port => some port
      | _ => none
  | none => []

/-- The resolver takes no port that the application has bound. -/
def TakesNone (step : HostStep) (h : SocketHost) : Prop :=
  ∀ port ∈ taken step h, h.owned.lookup port = none

instance (step : HostStep) (h : SocketHost) : Decidable (TakesNone step h) :=
  List.decidableBAll (fun port => h.owned.lookup port = none) (taken step h)

/-- Nor does the application bind a port that a query is pending on. -/
def Separate : HostStep → SocketHost → Prop
  | .bind port, h => h.resolver.pending.find? port = none
  | step, h => TakesNone step h

instance : (step : HostStep) → (h : SocketHost) → Decidable (Separate step h)
  | .bind port, h => inferInstanceAs (Decidable (h.resolver.pending.find? port = none))
  | .unbind port, h => inferInstanceAs (Decidable (TakesNone (.unbind port) h))
  | .setCallback port callback, h =>
    inferInstanceAs (Decidable (TakesNone (.setCallback port callback) h))
  | .arrives source sourcePort port payload, h =>
    inferInstanceAs (Decidable (TakesNone (.arrives source sourcePort port payload) h))
  | .resolver step, h => inferInstanceAs (Decidable (TakesNone (.resolver step) h))

/-- The application and the resolver are apart. -/
structure Undisturbed (h : SocketHost) : Prop where
  apart : Apart h.sockets h.owned h.resolver.pending.keys
  entered : h.resolver.Entered

theorem undisturbed_new (seed : UInt32) (servers : List IPv4Address) : Undisturbed (new seed servers) :=
  ⟨⟨fun _ _ h => (nomatch h), fun _ _ h => (nomatch h)⟩, DnsResolver.entered_new seed servers⟩

variable {h h' : SocketHost}

theorem undisturbed_after (hsafe : Undisturbed h) {step : HostStep} {dns : DnsStep} {r : DnsResolver}
    (hdns : step.dnsStep h = some dns) (hr : dns.run h.resolver = some r)
    (htakes : TakesNone step h) : Undisturbed (h.after r) := by
  obtain ⟨effects, heffects, htrace⟩ := traced_step hsafe.entered hr
  have hdrop : r.effects.drop h.resolver.effects.length = effects := by
    rw [heffects, List.drop_left]
  have hfree : ∀ port, .take port ∈ effects → h.owned.lookup port = none := by
    intro port hport
    refine htakes port ?_
    rw [taken, hdns, Option.bind_some, hr]
    exact List.mem_filterMap.2 ⟨.take port, hdrop.symm ▸ hport, rfl⟩
  obtain ⟨hapart, -, hresolver⟩ := apart_trace (h := { h with resolver := r }) htrace hsafe.apart hfree
  rw [after, hdrop]
  refine ⟨?_, ?_⟩ <;> rw [hresolver]
  · exact hapart
  · exact DnsResolver.entered_step hsafe.entered hr

theorem undisturbed_bind (hsafe : Undisturbed h) {port : UInt16}
    (hfree : h.resolver.pending.find? port = none) (hrun : (HostStep.bind port).run h = some h') :
    Undisturbed h' := by
  obtain rfl : h' = { (h.bindUdp port).1 with
      owned := (h.bindUdp port).1.owned.insert port (h.bindUdp port).2 } :=
    (Option.some.inj hrun).symm
  refine ⟨⟨fun port' socket hmine => ?_, fun port' socket hsocket hresolver => ?_⟩, ?_⟩
  all_goals simp only [bindUdp_resolver, bindUdp_owned] at *
  · rw [lookup_bindUdp]
    rcases Assoc.lookup_insert_cases hmine with ⟨rfl, rfl⟩ | ⟨hne, hmine⟩
    · rw [if_pos rfl]
      exact ⟨rfl, OrderedMap.find?_eq_none_iff.1 hfree⟩
    · rw [if_neg hne]
      exact hsafe.apart.mine port' socket hmine
  · rw [lookup_bindUdp] at hsocket
    by_cases heq : port' = port
    · -- a socket of the resolver on the port would mean a query is pending there
      subst heq
      rw [if_pos rfl, Option.some.injEq] at hsocket
      unfold bindUdp at hsocket
      cases hbound : h.sockets.lookup port' with
      | some bound =>
        rw [hbound] at hsocket
        subst hsocket
        exact hsafe.apart.theirs port' bound hbound hresolver
      | none =>
        rw [hbound] at hsocket
        subst hsocket
        cases hresolver
    · rw [if_neg heq] at hsocket
      exact hsafe.apart.theirs port' socket hsocket hresolver
  · exact hsafe.entered

theorem undisturbed_unbind (hsafe : Undisturbed h) {port : UInt16}
    (hrun : (HostStep.unbind port).run h = some h') : Undisturbed h' := by
  obtain rfl := Option.some.inj hrun
  refine ⟨⟨fun port' socket hmine => ?_, fun port' socket hsocket hresolver => ?_⟩, hsafe.entered⟩
  · obtain ⟨hne, hmine⟩ := Assoc.lookup_of_erase hmine
    rw [unbindUdp, Assoc.lookup_erase_eq, if_neg hne]
    exact hsafe.apart.mine port' socket hmine
  · exact hsafe.apart.theirs port' socket (Assoc.lookup_of_erase hsocket).2 hresolver

theorem undisturbed_setCallback (hsafe : Undisturbed h) {port : UInt16} {callback : ℕ}
    (hrun : (HostStep.setCallback port callback).run h = some h') : Undisturbed h' := by
  simp only [HostStep.run] at hrun
  split at hrun
  · next mine socket₀ hmine₀ hsocket₀ =>
    obtain ⟨-, hrun⟩ := Option.ite_none_right_eq_some.1 hrun
    obtain rfl := Option.some.inj hrun
    have hfree := (hsafe.apart.mine port mine hmine₀).2
    refine ⟨⟨fun port' socket hmine => ?_, fun port' socket hsocket hresolver => ?_⟩, hsafe.entered⟩
    · rw [setCallback, Assoc.lookup_insert_eq]
      rcases Assoc.lookup_insert_cases hmine with ⟨rfl, rfl⟩ | ⟨hne, hmine⟩
      · rw [if_pos rfl]
        exact ⟨rfl, hfree⟩
      · rw [if_neg hne]
        exact hsafe.apart.mine port' socket hmine
    · rcases Assoc.lookup_insert_cases hsocket with ⟨-, rfl⟩ | ⟨-, hsocket⟩
      · cases hresolver
      · exact hsafe.apart.theirs port' socket hsocket hresolver
  · cases hrun

/-- What one step does. -/
theorem undisturbed_step (step : HostStep) (h h' : SocketHost) (hsafe : Undisturbed h)
    (hok : Separate step h) (hrun : step.run h = some h') : Undisturbed h' := by
  cases step with
  | bind port => exact undisturbed_bind hsafe hok hrun
  | unbind port => exact undisturbed_unbind hsafe hrun
  | setCallback port callback => exact undisturbed_setCallback hsafe hrun
  | arrives source sourcePort port payload =>
    simp only [HostStep.run] at hrun
    split at hrun
    · obtain rfl := Option.some.inj hrun
      exact ⟨hsafe.apart, hsafe.entered⟩
    · next hsocket =>
      obtain ⟨r, hr, rfl⟩ := Option.map_eq_some_iff.1 hrun
      have hdns : (HostStep.arrives source sourcePort port payload).dnsStep h =
          some (.datagram source sourcePort port payload) := by
        simp only [HostStep.dnsStep, hsocket]
      exact undisturbed_after hsafe hdns hr hok
    · obtain rfl := Option.some.inj hrun
      exact hsafe
  | resolver dns =>
    have hdns : (HostStep.resolver dns).dnsStep h = some dns ∧
        (dns.run h.resolver).map h.after = some h' := by
      cases dns with
      | datagram => cases hrun
      | _ => exact ⟨rfl, hrun⟩
    obtain ⟨r, hr, rfl⟩ := Option.map_eq_some_iff.1 hdns.2
    exact undisturbed_after hsafe hdns.1 hr hok

/-- **Application sockets are left alone.**  As long as the resolver takes no port that the
application has bound and the application binds none that a query is pending on, every socket
of the application is bound as it left it, and a datagram that arrives there goes to its
callback, if it has one, and not to the resolver. -/
theorem application_sockets_kept {seed : UInt32} {servers : List IPv4Address} {steps : List HostStep}
    {h : SocketHost} (hrun : Runs.runs HostStep.run steps (new seed servers) = some h)
    (hok : Runs.Along HostStep.run Separate steps (new seed servers)) :
    ∀ port socket, h.owned.lookup port = some socket →
      h.sockets.lookup port = some socket ∧ socket.callback ≠ some .resolver ∧
      ∀ source sourcePort payload, (HostStep.arrives source sourcePort port payload).run h =
        match socket.callback with
        | some (.application callback) => some { h with received := h.received ++ [(port, callback)] }
        | _ => some h := by
  intro port socket hmine
  have hsafe := Runs.runs_invariant undisturbed_step (undisturbed_new seed servers) hok hrun
  obtain ⟨hsocket, hfree⟩ := hsafe.apart.mine port socket hmine
  have hreceiver : socket.callback ≠ some .resolver :=
    fun hresolver => hfree (hsafe.apart.theirs port socket hsocket hresolver)
  refine ⟨hsocket, hreceiver, fun source sourcePort payload => ?_⟩
  obtain ⟨identity, callback⟩ := socket
  rw [HostStep.run, hsocket]
  cases callback with
  | none => rfl
  | some receiver =>
    cases receiver with
    | application callback => rfl
    | resolver => exact absurd rfl hreceiver

/-- The application binds a port, and a query on another port is sent and given up. -/
def otherPort : List HostStep :=
  [.bind 50000, .setCallback 50000 7, .resolver (.resolve [97] false), .resolver (.timePassed 2000),
    .resolver .proceed, .resolver (.timePassed 2000), .resolver .proceed]

theorem otherPort_runs : (Runs.runs HostStep.run otherPort (new 1 [⟨1⟩])).isSome = true := by
  decide +kernel

theorem otherPort_kept : ∃ h, Runs.runs HostStep.run otherPort (new 1 [⟨1⟩]) = some h ∧
    h.sockets.lookup 50000 = some ⟨0, some (.application 7)⟩ := by
  have hrun := (Option.some_get otherPort_runs).symm
  exact ⟨_, hrun, (application_sockets_kept hrun (by decide +kernel) 50000
    ⟨0, some (.application 7)⟩ (by decide +kernel)).1⟩

/-- The application has bound the port that is drawn: its callback is replaced when the query
is sent, and its socket is gone when the query is given up. -/
theorem drawn_port_lost :
    ((Runs.runs HostStep.run
      [.bind 55200, .setCallback 55200 7, .resolver (.resolve [97] false)] (new 1 [⟨1⟩])).map
        fun h => (h.owned.lookup 55200, h.sockets.lookup 55200)) =
      some (some ⟨0, some (.application 7)⟩, some ⟨0, some .resolver⟩) ∧
    ((Runs.runs HostStep.run
      [.bind 55200, .setCallback 55200 7, .resolver (.resolve [97] false),
        .resolver (.timePassed 2000), .resolver .proceed, .resolver (.timePassed 2000),
        .resolver .proceed] (new 1 [⟨1⟩])).map
        fun h => (h.owned.lookup 55200, h.sockets.lookup 55200)) =
      some (some ⟨0, some (.application 7)⟩, none) := by
  decide +kernel

end SocketHost
end TcpIpStack
