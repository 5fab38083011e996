import RtFogros.Transport.Sessions
import RtFogros.Transport.Stream

/-!
# The datagrams of a session

`datagrams_routed`: a session's socket is given the datagrams of its peer and conversation that the
listener has received since it was made, in order and each once; while it is in the table and its
task runs, all of them.

Where a datagram goes is decided by the conversation of the session's crate, which only a datagram
of that conversation changes (`Conversing`, what the documentation of the crate promises).  So the
datagrams due to a session are a filter of the listener's history, `arrivals`, and `Routed` relates
it to what the socket was given, what waits in the channel and what the listener holds in its hand.
-/

namespace RtFogros.Transport

/-- What the crate promises of the conversation of a `Kcp`: only a datagram changes it, to its
own. -/
structure Conversing {K : Type} (seg : Segment) (api : Kcp K) : Prop where
  new : ∀ c stream conv, api.conv (api.applyConfig c (api.new stream conv)) = conv
  inputConv : ∀ k, api.conv (api.inputConv k) = api.conv k
  input : ∀ buf k, api.conv (api.input buf k).2 = api.conv k ∨
    api.conv (api.input buf k).2 = seg.getConv buf
  flushAck : ∀ k, api.conv (api.flushAck k).2 = api.conv k
  send : ∀ buf k, api.conv (api.send buf k).2 = api.conv k
  recv : ∀ len k, api.conv (api.recv len k).2 = api.conv k
  flush : ∀ k, api.conv (api.flush k).2 = api.conv k
  update : ∀ now k, api.conv (api.update now k).2 = api.conv k

section Conv

variable {K : Type} {seg : Segment} {api : Kcp K} (hapi : Conversing seg api)

include hapi

theorem conv_new {c : KcpConfig} {conv : UInt32} {time : Clock} {socket : KcpSocket K}
    (hnew : KcpSocket.new api c conv time = .ok socket) : api.conv socket.kcp = conv := by
  have hconv : api.conv (if conv = 0 then
      api.inputConv (api.applyConfig c (api.new c.stream conv))
      else api.applyConfig c (api.new c.stream conv)) = conv := by
    split
    · rw [hapi.inputConv, hapi.new]
    · exact hapi.new ..
  have hupdate := hapi.update time.millis (if conv = 0 then
    api.inputConv (api.applyConfig c (api.new c.stream conv))
    else api.applyConfig c (api.new c.stream conv))
  unfold KcpSocket.new at hnew
  dsimp only at hnew
  split at hnew
  · cases hnew
  · rename_i heq
    cases hnew
    rw [heq] at hupdate
    exact hupdate.trans hconv

omit hapi in
/-- An operation with nothing for another conversation. -/
def Within (seg : Segment) (conv : UInt32) : SocketOp → Prop
  | .io (.input _ buf) => seg.getConv buf = conv
  | .io (.setConv _) => False
  | _ => True

theorem conv_step {s : Polled K} (op : SocketOp)
    (hop : Within seg (api.conv s.socket.kcp) op) :
    api.conv (s.step api op).socket.kcp = api.conv s.socket.kcp := by
  let R : K → K → Prop := fun k k' =>
    api.conv k = api.conv s.socket.kcp → api.conv k' = api.conv s.socket.kcp
  have : IsPreorder K R := { refl := fun _ => id, trans := fun _ _ _ h h' => h' ∘ h }
  have hsame : ∀ {k k'}, api.conv k' = api.conv k → R k k' := fun h hk => h.trans hk
  refine (onKcp_step (R := R) op ?_ s).kcp rfl
  match op, hop with
  | .pollRecv time task len, _ => exact fun k => hsame (hapi.recv len k)
  | .io (.input time buf), hop =>
    refine ⟨fun k hk => ?_, fun k => hsame (hapi.flushAck k)⟩
    rcases hapi.input buf k with h | h
    · exact h.trans hk
    · exact h.trans hop
  | .io (.pollSend time task buf), _ =>
    exact ⟨fun buf k => hsame (hapi.send buf k), fun k => hsame (hapi.flush k)⟩
  | .io (.flush time), _ => exact fun k => hsame (hapi.flush k)
  | .io (.update time), _ => exact fun k => hsame (hapi.update _ k)
  | .io .close, _ => trivial

end Conv

/-! ### The header of a segment -/

/-- The header of a segment begins with its conversation, and its number is at byte 12. -/
def kcpSegment : Segment where
  overhead := 24
  getConv packet := fromLittleEndian (packet.take 4)
  getSn packet := fromLittleEndian ((packet.drop 12).take 4)
  setConv conv packet := toLittleEndian conv ++ packet.drop 4
  getConv_setConv conv _ _ := fromLittleEndian_toLittleEndian conv

theorem mailbox_conversing : Conversing kcpSegment mailbox where
  new _ _ _ := rfl
  inputConv _ := rfl
  input buf k := by
    obtain ⟨e, h⟩ | h := mailbox_input buf k
    · rw [h]
      exact .inl rfl
    · rw [h]
      exact .inl rfl
  flushAck _ := rfl
  send _ _ := rfl
  recv len k := by
    obtain ⟨conv, _ | ⟨message, rest⟩⟩ := k
    · rfl
    · unfold mailbox
      dsimp only
      split <;> rfl
  flush _ := rfl
  update _ _ := rfl

namespace KcpListener

variable {K Addr : Type} {seg : Segment} {api : Kcp K} {c : KcpConfig} {l : KcpListener K Addr}

/-- What a step does to a session leaves its conversation. -/
theorem Acts.conv (hapi : Conversing seg api) {i : Nat} {event : ListenerEvent Addr}
    {f : KcpSession K Addr → KcpSession K Addr} (h : Acts api c l i event f)
    {s : KcpSession K Addr}
    (hinput : ∀ buf ∈ s.inputTx, seg.getConv buf = api.conv s.socket.socket.kcp) :
    api.conv (f s).socket.socket.kcp = api.conv s.socket.socket.kcp := by
  cases h with
  | takeInput time =>
    obtain hsame | ⟨buf, inputTx, -, hqueue, htake⟩ := takeInput_cases api time s
    · rw [hsame]
    · rw [htake]
      exact conv_step hapi (.io (.input time buf))
        (hinput buf (hqueue ▸ List.mem_cons_self))
  | advance time =>
    unfold KcpSession.advance
    split <;> try rfl
    obtain ⟨hround, -⟩ | hround := round_cases api c time s
    · rw [hround]
    · rw [hround]
      refine (conv_step hapi (.io (.update time)) trivial).trans ?_
      split
      · exact conv_step hapi (.io (.flush time)) trivial
      · rfl
  | call call =>
    refine conv_step hapi _ ?_
    cases call <;> trivial
  | drop => rfl

/-! ## The invariant -/

theorem convOf_eq {i : Nat} {s : KcpSession K Addr} (hs : l.spawned[i]? = some s) :
    l.convOf api i = some (api.conv s.socket.socket.kcp) := by
  unfold convOf
  rw [hs]
  rfl

variable [DecidableEq Addr]

/-- The datagrams of the session's peer and conversation since it was made. -/
def arrivals (seg : Segment) (l : KcpListener K Addr) (s : KcpSession K Addr) : List Bytes :=
  ((l.received.drop s.since).filter
    fun d => d.1 = s.peerAddr ∧ seg.getConv d.2 = s.conv).map Prod.snd

/-- Where the datagrams of every session are. -/
structure Routed (seg : Segment) (api : Kcp K) (l : KcpListener K Addr) : Prop where
  sending : ∀ i packet, l.sending = some (i, packet) → i < l.spawned.length
  since : ∀ {i : Nat} {s : KcpSession K Addr}, l.spawned[i]? = some s → s.since ≤ l.received.length
  conv : ∀ {i : Nat} {s : KcpSession K Addr}, l.spawned[i]? = some s →
    api.conv s.socket.socket.kcp = s.conv
  queued : ∀ {i : Nat} {s : KcpSession K Addr}, l.spawned[i]? = some s →
    s.given ++ s.inputTx <+: l.arrivals seg s
  coming : ∀ {i : Nat} {s : KcpSession K Addr}, l.spawned[i]? = some s → s.updater ≠ .aborted →
    s.given ++ s.inputTx ++ l.waiting i <+: l.arrivals seg s
  all : ∀ {i : Nat} {s : KcpSession K Addr}, l.spawned[i]? = some s →
    l.sessions s.peerAddr = some i → s.updater ≠ .aborted →
      s.given ++ s.inputTx ++ l.waiting i = l.arrivals seg s

theorem Kin.arrivals {s t : KcpSession K Addr} (h : Kin s t) {l' : KcpListener K Addr}
    (hreceived : l'.received = l.received) : l'.arrivals seg t = l.arrivals seg s := by
  unfold KcpListener.arrivals
  rw [hreceived, h.peerAddr, h.conv, h.since]

theorem conv_of_mem_arrivals {s : KcpSession K Addr} {packet : Bytes}
    (h : packet ∈ l.arrivals seg s) : seg.getConv packet = s.conv := by
  obtain ⟨d, hd, rfl⟩ := List.mem_map.1 h
  have hkept := (List.mem_filter.1 hd).2
  simp only [decide_eq_true_eq] at hkept
  exact hkept.2

theorem Routed.conv_of_queued (h : Routed seg api l) {i : Nat} {s : KcpSession K Addr}
    (hs : l.spawned[i]? = some s) :
    ∀ buf ∈ s.inputTx, seg.getConv buf = api.conv s.socket.socket.kcp := by
  intro buf hbuf
  rw [h.conv hs]
  exact conv_of_mem_arrivals ((h.queued hs).subset (List.mem_append_right _ hbuf))

theorem Routed.start : Routed seg api ({} : KcpListener K Addr) where
  sending := nofun
  since := nofun
  conv := nofun
  queued := nofun
  coming := nofun
  all := nofun

/-- Steps of sessions. -/
theorem Routed.flow (h : Routed seg api l) {l' : KcpListener K Addr}
    (hreceived : l'.received = l.received) (hsending : l'.sending = l.sending)
    (hlen : l'.spawned.length = l.spawned.length)
    (hsessions : ∀ peer i, l'.sessions peer = some i → l.sessions peer = some i)
    (hflow : ∀ (j : Nat) (t : KcpSession K Addr), l'.spawned[j]? = some t →
      ∃ s, l.spawned[j]? = some s ∧ Flow s t ∧
        api.conv t.socket.socket.kcp = api.conv s.socket.socket.kcp) : Routed seg api l' := by
  have hwaiting : ∀ i, l'.waiting i = l.waiting i := by
    intro i
    unfold waiting
    rw [hsending]
  refine ⟨fun i packet hi => ?_, fun {i t} ht => ?_, fun {i t} ht => ?_, fun {i t} ht => ?_,
    fun {i t} ht habort => ?_, fun {i t} ht htable habort => ?_⟩
  · rw [hlen]
    exact h.sending i packet (hsending ▸ hi)
  all_goals obtain ⟨s, hs, hst, hconv⟩ := hflow i t ht
  · rw [hst.since, hreceived]
    exact h.since hs
  · rw [hconv, hst.conv]
    exact h.conv hs
  · rw [hst.datagrams, hst.toKin.arrivals hreceived]
    exact h.queued hs
  · rw [hst.datagrams, hst.toKin.arrivals hreceived, hwaiting]
    exact h.coming hs fun hs' => habort (hst.aborted hs')
  · rw [hst.datagrams, hst.toKin.arrivals hreceived, hwaiting]
    rw [hst.peerAddr] at htable
    exact h.all hs (hsessions _ _ htable) fun hs' => habort (hst.aborted hs')

theorem Routed.closePeer (h : Routed seg api l) (peer : Addr) :
    Routed seg api (l.closePeer peer) := by
  refine h.flow (closePeer_received peer) ?_ (closePeer_length peer) (fun peer' i hi => ?_)
    fun j t ht => ?_
  · unfold KcpListener.closePeer
    split <;> rfl
  · rw [closePeer_sessions] at hi
    split at hi
    · cases hi
    · exact hi
  · obtain ⟨s, hs, ⟨-, rfl⟩ | ⟨-, rfl⟩⟩ := spawned_closePeer ht
    · exact ⟨s, hs, .close s, rfl⟩
    · exact ⟨_, hs, .refl _, rfl⟩

theorem arrivals_note (peer : Addr) (packet : Bytes) {s : KcpSession K Addr}
    (hsince : s.since ≤ l.received.length) :
    (l.note peer packet).arrivals seg s = l.arrivals seg s ++
      if peer = s.peerAddr ∧ seg.getConv packet = s.conv then [packet] else [] := by
  unfold arrivals note
  dsimp only
  rw [List.drop_append_of_le_length hsince, List.filter_append, List.map_append]
  by_cases hmatch : peer = s.peerAddr ∧ seg.getConv packet = s.conv
  · rw [if_pos hmatch, List.filter_cons_of_pos (by simpa using hmatch)]
    rfl
  · rw [if_neg hmatch, List.filter_cons_of_neg (by simpa using hmatch)]
    rfl

/-- A datagram that is not for a session of the table. -/
theorem Routed.note (h : Routed seg api l) (peer : Addr) (packet : Bytes)
    (hforeign : ∀ i s, l.spawned[i]? = some s → l.sessions s.peerAddr = some i →
      ¬ (peer = s.peerAddr ∧ seg.getConv packet = s.conv)) :
    Routed seg api (l.note peer packet) where
  sending := h.sending
  since hs := (h.since hs).trans (by simp [KcpListener.note])
  conv := h.conv
  queued hs := by
    rw [arrivals_note peer packet (h.since hs)]
    exact (h.queued hs).trans (List.prefix_append ..)
  coming hs habort := by
    rw [arrivals_note peer packet (h.since hs)]
    exact (h.coming hs habort).trans (List.prefix_append ..)
  all hs htable habort := by
    rw [arrivals_note peer packet (h.since hs), if_neg (hforeign _ _ hs htable), List.append_nil]
    exact h.all hs htable habort

/-- A datagram for the peer's session. -/
theorem Routed.give (h : Routed seg api l) {i : Nat} {s : KcpSession K Addr}
    (hs : l.spawned[i]? = some s) (htable : l.sessions s.peerAddr = some i) {packet : Bytes}
    (hconv : seg.getConv packet = s.conv) (hsending : l.sending = none) :
    Routed seg api { l.note s.peerAddr packet with sending := some (i, packet) } := by
  have hnone := waiting_of_none hsending
  have hnote : ∀ {j t}, l.spawned[j]? = some t →
      KcpListener.arrivals seg { l.note s.peerAddr packet with sending := some (i, packet) } t =
        l.arrivals seg t ++
          if s.peerAddr = t.peerAddr ∧ seg.getConv packet = t.conv then [packet] else [] :=
    fun ht => arrivals_note s.peerAddr packet (h.since ht)
  have hself : ∀ {t : KcpSession K Addr}, l.spawned[i]? = some t →
      l.arrivals seg t ++
        (if s.peerAddr = t.peerAddr ∧ seg.getConv packet = t.conv then [packet] else []) =
      l.arrivals seg t ++ [packet] := fun ht => by
    rw [hs] at ht
    cases ht
    rw [if_pos ⟨rfl, hconv⟩]
  have hwaiting : ∀ j, KcpListener.waiting
      { l.note s.peerAddr packet with sending := some (i, packet) } j =
        if i = j then [packet] else [] := fun _ => rfl
  refine ⟨fun j packet' hj => ?_, fun ht => ?_, h.conv, fun ht => ?_, fun {j t} ht habort => ?_,
    fun {j t} ht htable' habort => ?_⟩
  · cases hj
    exact (List.getElem?_eq_some_iff.1 hs).1
  · exact (h.since ht).trans (by simp [KcpListener.note])
  · rw [hnote ht]
    exact (h.queued ht).trans (List.prefix_append ..)
  · have hcoming := h.coming ht habort
    rw [hnone, List.append_nil] at hcoming
    rw [hnote ht, hwaiting]
    by_cases heq : i = j
    · subst heq
      have heq : s = t := Option.some.inj (hs.symm.trans ht)
      have hall := h.all ht (heq ▸ htable) habort
      rw [hnone, List.append_nil] at hall
      rw [if_pos rfl, hself ht, hall]
    · rw [if_neg heq, List.append_nil]
      exact hcoming.trans (List.prefix_append ..)
  · have hall := h.all ht htable' habort
    rw [hnone, List.append_nil] at hall
    rw [hnote ht, hwaiting, hall]
    by_cases heq : i = j
    · subst heq
      rw [if_pos rfl, hself ht]
    · rw [if_neg heq, if_neg]
      rintro ⟨hpeer, -⟩
      rw [← hpeer] at htable'
      exact heq (Option.some.inj (htable.symm.trans htable'))

theorem Routed.insert (h : Routed seg api l) (peer : Addr) {conv : UInt32}
    {socket : KcpSocket K} (hconv : api.conv socket.kcp = conv) (hsending : l.sending = none) :
    Routed seg api (l.insert peer conv socket) := by
  have hclose := h.closePeer peer
  have hreceived : (l.insert peer conv socket).received = l.received := closePeer_received peer
  have hnone : (l.insert peer conv socket).sending = none :=
    (insert_sending peer conv socket).trans hsending
  have hwaiting := waiting_of_none hnone
  have hwaiting' := waiting_of_none ((closePeer_sending peer).trans hsending)
  have hsame : ∀ s,
      (l.insert peer conv socket).arrivals seg s = (l.closePeer peer).arrivals seg s :=
    fun s => (Flow.refl s).toKin.arrivals (hreceived.trans (closePeer_received peer).symm)
  have hnew : (l.insert peer conv socket).arrivals seg (.new socket peer conv l.received.length) =
      [] := by
    unfold arrivals
    rw [hreceived]
    change ((List.drop l.received.length l.received).filter _).map _ = []
    rw [List.drop_length]
    rfl
  refine ⟨fun i packet hi => ?_, fun {i s} hs => ?_, fun {i s} hs => ?_, fun {i s} hs => ?_,
    fun {i s} hs habort => ?_, fun {i s} hs htable habort => ?_⟩
  · rw [hnone] at hi
    cases hi
  all_goals obtain ⟨hlt, hs⟩ | ⟨rfl, rfl⟩ := spawned_insert hs
  · rw [hreceived, ← closePeer_received (l := l) peer]
    exact hclose.since hs
  · exact (congrArg List.length hreceived).ge
  · exact hclose.conv hs
  · exact hconv
  · rw [hsame]
    exact hclose.queued hs
  · rw [hnew]
    exact List.prefix_rfl
  · have hcoming := hclose.coming hs habort
    rw [hwaiting'] at hcoming
    rwa [hwaiting, hsame]
  · rw [hwaiting, hnew]
    exact List.prefix_rfl
  · have htable' : (l.closePeer peer).sessions s.peerAddr = some i := by
      rw [insert_sessions] at htable
      rw [closePeer_sessions]
      split at htable
      · cases htable
        exact absurd hlt (Nat.lt_irrefl _)
      · rename_i hpeer
        rw [if_neg hpeer, htable]
    have hall := hclose.all hs htable' habort
    rw [hwaiting'] at hall
    rwa [hwaiting, hsame]
  · rw [hwaiting, hnew]
    rfl

/-- The datagram is not for the session of its peer. -/
theorem Routed.foreign (h : Routed seg api l) {peer : Addr} {packet : Bytes}
    (hforeign : Foreign api l peer (seg.getConv packet)) (i : Nat) (s : KcpSession K Addr)
    (hs : l.spawned[i]? = some s) (htable : l.sessions s.peerAddr = some i) :
    ¬ (peer = s.peerAddr ∧ seg.getConv packet = s.conv) := by
  rintro ⟨rfl, hconv⟩
  refine hforeign i htable ?_
  rw [convOf_eq hs, h.conv hs, hconv]

theorem Routed.modify (h : Routed seg api l) (i : Nat) {f : KcpSession K Addr → KcpSession K Addr}
    (hf : ∀ s, l.spawned[i]? = some s → Flow s (f s) ∧
      api.conv (f s).socket.socket.kcp = api.conv s.socket.socket.kcp) :
    Routed seg api (l.modify i f) := by
  refine h.flow rfl rfl (List.length_modify ..) (fun _ _ => id) fun j t ht => ?_
  obtain ⟨s, hs, ⟨rfl, rfl⟩ | ⟨-, rfl⟩⟩ := spawned_modify ht
  · exact ⟨s, hs, hf s hs⟩
  · exact ⟨_, hs, .refl _, rfl⟩

/-- The datagram has its place in the channel. -/
theorem Routed.sent (h : Routed seg api l) {i : Nat} {packet : Bytes}
    (hsending : l.sending = some (i, packet)) {s : KcpSession K Addr}
    (hs : l.spawned[i]? = some s) (habort : s.updater ≠ .aborted) :
    Routed seg api
      { l.modify i fun s => { s with inputTx := s.inputTx ++ [packet] } with sending := none } := by
  set l' : KcpListener K Addr :=
    { l.modify i fun s => { s with inputTx := s.inputTx ++ [packet] } with sending := none }
  have hwaiting : ∀ j, l'.waiting j = [] := waiting_of_none rfl
  have harrivals : ∀ t, l'.arrivals seg t = l.arrivals seg t := fun _ => rfl
  have hself : l.waiting i = [packet] := by
    unfold waiting
    rw [hsending]
    exact if_pos rfl
  have hother : ∀ j, j ≠ i → l.waiting j = [] := fun j hj => by
    unfold waiting
    rw [hsending]
    exact if_neg hj.symm
  -- in the session, it goes from one place to the next
  have hspawned : ∀ (j : Nat) (t : KcpSession K Addr), l'.spawned[j]? = some t →
      ∃ t₀, l.spawned[j]? = some t₀ ∧ Kin t₀ t ∧ t.updater = t₀.updater ∧
        t.socket = t₀.socket ∧ t.given ++ t.inputTx = t₀.given ++ t₀.inputTx ++ l.waiting j := by
    intro j t ht
    obtain ⟨t₀, ht₀, ⟨rfl, rfl⟩ | ⟨hne, rfl⟩⟩ := spawned_modify ht
    · refine ⟨t₀, ht₀, ⟨rfl, rfl, rfl, id⟩, rfl, rfl, ?_⟩
      rw [hself, List.append_assoc]
    · refine ⟨t, ht₀, (Flow.refl t).toKin, rfl, rfl, ?_⟩
      rw [hother j hne, List.append_nil]
  refine ⟨nofun, fun {j t} ht => ?_, fun {j t} ht => ?_, fun {j t} ht => ?_,
    fun {j t} ht habort' => ?_, fun {j t} ht htable habort' => ?_⟩
  all_goals obtain ⟨t₀, ht₀, hkin, hupdater, hsocket, hdatagrams⟩ := hspawned j t ht
  · rw [hkin.since]
    exact h.since ht₀
  · rw [hsocket, hkin.conv]
    exact h.conv ht₀
  · rw [hdatagrams, hkin.arrivals rfl]
    by_cases hj : j = i
    · subst hj
      rw [hs] at ht₀
      cases ht₀
      exact h.coming hs habort
    · rw [hother j hj, List.append_nil]
      exact h.queued ht₀
  · rw [hdatagrams, hkin.arrivals rfl, hwaiting, List.append_nil]
    exact h.coming ht₀ (hupdater ▸ habort')
  · rw [hdatagrams, hkin.arrivals rfl, hwaiting, List.append_nil]
    exact h.all ht₀ (hkin.peerAddr ▸ htable) (hupdater ▸ habort')

/-- The session's task has ended, and the datagram is lost. -/
theorem Routed.dropped (h : Routed seg api l) {i : Nat} {packet : Bytes}
    (hsending : l.sending = some (i, packet)) {s : KcpSession K Addr}
    (hs : l.spawned[i]? = some s) (habort : s.updater = .aborted) :
    Routed seg api { l with sending := none } := by
  have hother : ∀ {j t}, l.spawned[j]? = some t → t.updater ≠ .aborted → l.waiting j = [] := by
    intro j t ht hrunning
    unfold waiting
    rw [hsending]
    refine if_neg fun hij => hrunning ?_
    subst hij
    rw [hs] at ht
    cases ht
    exact habort
  refine ⟨nofun, h.since, h.conv, h.queued, fun ht hrunning => ?_,
    fun ht htable hrunning => ?_⟩
  · have hcoming := h.coming ht hrunning
    rwa [hother ht hrunning] at hcoming
  · have hall := h.all ht htable hrunning
    rwa [hother ht hrunning] at hall

theorem Routed.steps (hapi : Conversing seg api) (h : Routed seg api l) (hexclusive : Exclusive l)
    {event : ListenerEvent Addr} {l' : KcpListener K Addr}
    (hsteps : Steps seg api c l event l') : Routed seg api l' := by
  cases hsteps with
  | stay => exact h
  | act hact =>
    exact h.modify _ fun s hs => ⟨hact.flow s, hact.conv hapi (h.conv_of_queued hs)⟩
  | lost time peer raw packet allocated hsending hforeign =>
    exact h.note peer packet (h.foreign hforeign)
  | given time peer raw packet allocated i hsending htable hconv =>
    obtain ⟨s, hs, rfl⟩ := hexclusive.listed htable
    rw [convOf_eq hs, h.conv hs] at hconv
    exact h.give hs htable (Option.some.inj hconv).symm hsending
  | fresh time peer raw packet allocated socket hsending hpacket hopens hnew =>
    have hinsert := h.insert peer (conv_new hapi hnew) hsending
    have hsending' : (l.insert peer (seg.getConv packet) socket).sending = none :=
      (insert_sending ..).trans hsending
    have hgive := hinsert.give
      (spawned_insert_self peer (seg.getConv packet) socket)
      ((insert_sessions ..).trans (if_pos rfl)) rfl hsending'
    exact ⟨hgive.sending, hgive.since, hgive.conv, hgive.queued, hgive.coming, hgive.all⟩
  | refused time peer raw packet allocated socket hsending hpacket hopens hnew =>
    have hinsert := h.insert peer (conv_new hapi hnew) hsending
    rw [closePeer_note]
    refine (hinsert.closePeer peer).note peer packet fun i s hs htable => ?_
    rintro ⟨rfl, -⟩
    rw [closePeer_sessions, if_pos rfl] at htable
    cases htable
  | sent i packet s hsending hs habort => exact h.sent hsending hs habort
  | dropped i packet s hsending hs habort => exact h.dropped hsending hs habort
  | closed peer closeRx =>
    have hrest : Routed seg api { l with closeRx } :=
      ⟨h.sending, h.since, h.conv, h.queued, h.coming, h.all⟩
    exact hrest.closePeer peer
  | accepted => exact ⟨h.sending, h.since, h.conv, h.queued, h.coming, h.all⟩
  | notified i time s hs hnotifying =>
    have hmodify := h.modify i (f := fun s => { s with updater := .notified }) fun t ht => by
      rw [hs] at ht
      cases ht
      exact ⟨⟨⟨rfl, rfl, rfl, id⟩, rfl, by rw [hnotifying]; nofun, fun _ => rfl⟩, rfl⟩
    exact ⟨hmodify.sending, hmodify.since, hmodify.conv, hmodify.queued, hmodify.coming,
      hmodify.all⟩

theorem routed_after (hapi : Conversing seg api) (c : KcpConfig)
    (events : List (ListenerEvent Addr)) :
    Exclusive (Run.after (step seg api c) ({} : KcpListener K Addr) events) ∧
      Routed seg api (Run.after (step seg api c) ({} : KcpListener K Addr) events) :=
  Run.invariant
    (fun l event (h : Exclusive l ∧ Routed seg api l) =>
      ⟨h.1.steps (step_steps event), h.2.steps hapi h.1 (step_steps event)⟩)
    ⟨.start, .start⟩ events

/-- **Main result.**  In every run a session's socket was given, and its channel holds, the
datagrams of the session's peer and conversation that were received since it was made, in order
and each once: a first part of them, and all of them while the session is in the table and its
task runs. -/
theorem datagrams_routed (hapi : Conversing seg api) (c : KcpConfig)
    (events : List (ListenerEvent Addr)) :
    let l := Run.after (step seg api c) ({} : KcpListener K Addr) events
    ∀ i s, l.spawned[i]? = some s →
      s.given ++ s.inputTx <+: l.arrivals seg s ∧
      (l.sessions s.peerAddr = some i → s.updater ≠ .aborted →
        s.given ++ s.inputTx ++ l.waiting i = l.arrivals seg s) := by
  intro l i s hs
  have h : Routed seg api l := (routed_after hapi c events).2
  exact ⟨h.queued hs, h.all hs⟩

/-- Two datagrams for the session of peer 5, and one that is for no session. -/
def sampleDatagrams : List (ListenerEvent Nat) :=
  [.datagram ⟨1, 1⟩ 5 (segment 7 0 [1]) 9, .send, .takeInput 0 ⟨2, 2⟩,
    .datagram ⟨3, 3⟩ 5 (segment 8 1 [3]) 9, .datagram ⟨4, 4⟩ 5 (segment 7 1 [2]) 9, .send]

theorem datagrams_routed_sample :
    let l := Run.after (step kcpSegment mailbox (toKcpConfig "fast"))
      ({} : KcpListener (UInt32 × List Bytes) Nat) sampleDatagrams
    ∃ s, l.spawned[0]? = some s ∧ s.given = [segment 7 0 [1]] ∧ s.inputTx = [segment 7 1 [2]] ∧
      s.given ++ s.inputTx <+: l.arrivals kcpSegment s :=
  ⟨_, rfl, by decide, by decide,
    (datagrams_routed mailbox_conversing (toKcpConfig "fast") sampleDatagrams 0 _ rfl).1⟩

end KcpListener

end RtFogros.Transport
