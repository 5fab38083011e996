import RtFogros.Transport.Sessions

/-!
# Accepted streams

The application is handed the streams of the sessions in the order in which these were made, each
at most once: `accepted_once`.  A session whose stream finds no room in the channel of `accept` is
made and closed in one step, so `Refused` says of it that it is closed and out of the table, and
that no datagram was ever given to it or waits for it.

`Accepts` tells the sessions apart by their streams: handed over, in the channel, or refused.  It
is kept by the step relation of the sessions, so the listener's functions are not unfolded again.
-/

namespace RtFogros.Transport

namespace KcpListener

variable {K Addr : Type} {seg : Segment} {api : Kcp K} {c : KcpConfig} {l : KcpListener K Addr}

/-- The streams handed to the application, or in the channel to it. -/
def streams (l : KcpListener K Addr) : List (Nat × Addr) := l.accepted ++ l.acceptRx

/-- The stream of the session was refused. -/
structure Refused (l : KcpListener K Addr) (i : Nat) (s : KcpSession K Addr) : Prop where
  closed : s.closed = true
  datagrams : s.given ++ s.inputTx = []
  waiting : l.waiting i = []
  table : l.sessions s.peerAddr ≠ some i

structure Accepts (l : KcpListener K Addr) : Prop where
  sending : ∀ i packet, l.sending = some (i, packet) → i < l.spawned.length
  ordered : (l.streams.map Prod.fst).Pairwise (· < ·)
  spawned : ∀ {i peer}, (i, peer) ∈ l.streams →
    ∃ s : KcpSession K Addr, l.spawned[i]? = some s ∧ s.peerAddr = peer
  refused : ∀ {i : Nat} {s : KcpSession K Addr}, l.spawned[i]? = some s →
    i ∉ l.streams.map Prod.fst → Refused l i s

theorem Accepts.start : Accepts ({} : KcpListener K Addr) where
  sending := nofun
  ordered := .nil
  spawned h := absurd h List.not_mem_nil
  refused := nofun

/-- Steps of sessions. -/
theorem Accepts.flow (h : Accepts l) {l' : KcpListener K Addr}
    (hstreams : l'.streams = l.streams) (hsending : l'.sending = l.sending)
    (hsessions : ∀ peer i, l'.sessions peer = some i → l.sessions peer = some i)
    (hlen : l'.spawned.length = l.spawned.length)
    (hflow : ∀ (j : Nat) (t : KcpSession K Addr), l'.spawned[j]? = some t →
      ∃ s, l.spawned[j]? = some s ∧ Flow s t) : Accepts l' := by
  refine ⟨fun i packet hi => ?_, hstreams ▸ h.ordered, fun {i peer} hmem => ?_,
    fun {i t} ht hnot => ?_⟩
  · rw [hlen]
    exact h.sending i packet (hsending ▸ hi)
  · rw [hstreams] at hmem
    obtain ⟨s, hs, hpeer⟩ := h.spawned hmem
    have hlt : i < l'.spawned.length := by
      rw [hlen]
      exact (List.getElem?_eq_some_iff.1 hs).1
    obtain ⟨s', hs', hst⟩ := hflow i _ (List.getElem?_eq_getElem hlt)
    rw [hs] at hs'
    cases hs'
    exact ⟨_, List.getElem?_eq_getElem hlt, hst.peerAddr.trans hpeer⟩
  · obtain ⟨s, hs, hst⟩ := hflow i t ht
    rw [hstreams] at hnot
    have hrefused := h.refused hs hnot
    refine ⟨hst.closed hrefused.closed, hst.datagrams.trans hrefused.datagrams, ?_, ?_⟩
    · unfold KcpListener.waiting
      rw [hsending]
      exact hrefused.waiting
    · intro htable
      rw [hst.peerAddr] at htable
      exact hrefused.table (hsessions _ _ htable)

/-- Steps of the rest of the listener. -/
theorem Accepts.same (h : Accepts l) {l' : KcpListener K Addr} (hstreams : l'.streams = l.streams)
    (hsending : l'.sending = l.sending) (hsessions : l'.sessions = l.sessions)
    (hspawned : l'.spawned = l.spawned) : Accepts l' := by
  refine h.flow hstreams hsending (fun peer i hi => hsessions ▸ hi) (hspawned ▸ rfl)
    fun j t ht => ⟨t, hspawned ▸ ht, .refl t⟩

theorem Accepts.modify (h : Accepts l) (i : Nat) {f : KcpSession K Addr → KcpSession K Addr}
    (hf : ∀ s, l.spawned[i]? = some s → Flow s (f s)) : Accepts (l.modify i f) := by
  refine h.flow rfl rfl (fun _ _ => id) (List.length_modify ..) fun j t ht => ?_
  obtain ⟨s, hs, ⟨rfl, rfl⟩ | ⟨-, rfl⟩⟩ := spawned_modify ht
  · exact ⟨s, hs, hf s hs⟩
  · exact ⟨_, hs, .refl _⟩

/-- A session that is given a datagram was not refused. -/
theorem Accepts.mem_of_waiting (h : Accepts l) {i : Nat} {packet : Bytes}
    (hsending : l.sending = some (i, packet)) {s : KcpSession K Addr}
    (hs : l.spawned[i]? = some s) : i ∈ l.streams.map Prod.fst := by
  by_contra hnot
  have hwaiting := (h.refused hs hnot).waiting
  unfold waiting at hwaiting
  rw [hsending] at hwaiting
  exact absurd ((if_pos rfl).symm.trans hwaiting) (List.cons_ne_nil _ _)

variable [DecidableEq Addr]

theorem Accepts.closePeer (h : Accepts l) (peer : Addr) : Accepts (l.closePeer peer) := by
  refine h.flow ?_ (closePeer_sending peer) (fun peer' i hi => ?_) (closePeer_length peer)
    fun j t ht => ?_
  · unfold streams KcpListener.closePeer
    split <;> rfl
  · rw [closePeer_sessions] at hi
    split at hi
    · cases hi
    · exact hi
  · obtain ⟨s, hs, ⟨-, rfl⟩ | ⟨-, rfl⟩⟩ := spawned_closePeer ht
    · exact ⟨s, hs, .close s⟩
    · exact ⟨_, hs, .refl _⟩

/-- The session that is made, with the sessions there were. -/
theorem Accepts.insert (h : Accepts l) (peer : Addr) (conv : UInt32) (socket : KcpSocket K)
    {j : Nat} {s : KcpSession K Addr} (hs : (l.insert peer conv socket).spawned[j]? = some s)
    (hnot : j ∉ l.streams.map Prod.fst) (hj : j ≠ l.spawned.length) :
    Refused (l.closePeer peer) j s ∧ (l.insert peer conv socket).sessions s.peerAddr ≠ some j := by
  obtain ⟨-, hs⟩ | ⟨heq, -⟩ := spawned_insert hs
  · have hstreams : (l.closePeer peer).streams = l.streams := by
      unfold streams KcpListener.closePeer
      split <;> rfl
    have hrefused := (h.closePeer peer).refused hs (by rwa [hstreams])
    refine ⟨hrefused, fun htable => ?_⟩
    rw [insert_sessions] at htable
    split at htable
    · exact hj (Option.some.inj htable).symm
    · rename_i hpeer
      refine hrefused.table ?_
      rw [closePeer_sessions, if_neg hpeer, htable]
  · exact absurd heq hj

theorem Accepts.fresh (h : Accepts l) (peer : Addr) (conv : UInt32) (socket : KcpSocket K)
    (packet : Bytes) :
    Accepts { (l.insert peer conv socket).note peer packet with
      acceptRx := l.acceptRx ++ [(l.spawned.length, peer)]
      sending := some (l.spawned.length, packet) } := by
  set l' : KcpListener K Addr := { (l.insert peer conv socket).note peer packet with
    acceptRx := l.acceptRx ++ [(l.spawned.length, peer)]
    sending := some (l.spawned.length, packet) }
  have haccepted : (l.closePeer peer).accepted = l.accepted := by
    unfold KcpListener.closePeer
    split <;> rfl
  have hstreams : l'.streams = l.streams ++ [(l.spawned.length, peer)] := by
    change (l.closePeer peer).accepted ++ (l.acceptRx ++ _) = _
    rw [haccepted, ← List.append_assoc]
    rfl
  have hself := spawned_insert_self (l := l) peer conv socket
  refine ⟨fun i packet' hi => ?_, ?_, fun {i peer'} hmem => ?_, fun {i s} hs hnot => ?_⟩
  · cases hi
    exact (List.getElem?_eq_some_iff.1 hself).1
  · rw [hstreams, List.map_append]
    refine List.pairwise_append.2 ⟨h.ordered, List.pairwise_singleton _ _, fun i hi j hj => ?_⟩
    obtain ⟨⟨i, peer'⟩, hmem, rfl⟩ := List.mem_map.1 hi
    obtain ⟨s, hs, -⟩ := h.spawned hmem
    rw [List.map_singleton, List.mem_singleton] at hj
    rw [hj]
    exact (List.getElem?_eq_some_iff.1 hs).1
  · rw [hstreams, List.mem_append, List.mem_singleton] at hmem
    obtain hmem | heq := hmem
    · obtain ⟨s, hs, hpeer⟩ := h.spawned hmem
      obtain ⟨t, ht, hst⟩ := exists_spawned_insert hs peer conv socket
      exact ⟨t, ht, hst.peerAddr.trans hpeer⟩
    · cases heq
      exact ⟨_, hself, rfl⟩
  · rw [hstreams, List.map_append, List.mem_append, not_or] at hnot
    have hne : i ≠ l.spawned.length := by simpa using hnot.2
    obtain ⟨hrefused, htable⟩ := h.insert peer conv socket hs hnot.1 hne
    exact ⟨hrefused.closed, hrefused.datagrams, if_neg hne.symm, htable⟩

/-- A session whose stream finds no room is made and closed. -/
theorem Accepts.refuse (h : Accepts l) (peer : Addr) (conv : UInt32) (socket : KcpSocket K)
    (packet : Bytes) (hsending : l.sending = none) :
    Accepts (((l.insert peer conv socket).note peer packet).closePeer peer) := by
  rw [closePeer_note]
  set l' := ((l.insert peer conv socket).closePeer peer).note peer packet
  have hstreams : l'.streams = l.streams := by
    have hclose : ∀ l : KcpListener K Addr, (l.closePeer peer).streams = l.streams := by
      intro l
      unfold streams KcpListener.closePeer
      split <;> rfl
    exact (hclose _).trans (hclose l)
  have hnone : l'.sending = none :=
    (closePeer_sending peer).trans ((insert_sending ..).trans hsending)
  refine ⟨fun i packet' hi => ?_, hstreams ▸ h.ordered, fun {i peer'} hmem => ?_,
    fun {i s} hs hnot => ?_⟩
  · rw [hnone] at hi
    cases hi
  · rw [hstreams] at hmem
    obtain ⟨s, hs, hpeer⟩ := h.spawned hmem
    obtain ⟨t, ht, hst⟩ := exists_spawned_insert hs peer conv socket
    obtain ⟨t', ht', htt'⟩ := exists_spawned_closePeer ht peer
    exact ⟨t', ht', htt'.peerAddr.trans (hst.peerAddr.trans hpeer)⟩
  · rw [hstreams] at hnot
    have htable : ∀ {j}, l'.sessions s.peerAddr = some j →
        s.peerAddr ≠ peer ∧ (l.insert peer conv socket).sessions s.peerAddr = some j := by
      intro j hj
      change ((l.insert peer conv socket).closePeer peer).sessions s.peerAddr = some j at hj
      rw [closePeer_sessions] at hj
      split at hj
      · cases hj
      · rename_i hpeer
        exact ⟨hpeer, hj⟩
    obtain ⟨t, ht, hts⟩ := spawned_closePeer hs
    by_cases hi : i = l.spawned.length
    · -- it is the one that was made
      subst hi
      obtain ⟨hlt, -⟩ | ⟨-, rfl⟩ := spawned_insert ht
      · exact absurd hlt (Nat.lt_irrefl _)
      obtain ⟨-, rfl⟩ | ⟨hother, -⟩ := hts
      · exact ⟨rfl, rfl, waiting_of_none hnone _, fun hj => (htable hj).1 rfl⟩
      · exact absurd ((insert_sessions ..).trans (if_pos rfl)) hother
    · obtain ⟨hrefused, hold⟩ := h.insert peer conv socket ht hnot hi
      have hflow : Flow t s := by
        obtain ⟨-, rfl⟩ | ⟨-, rfl⟩ := hts
        · exact .close t
        · exact .refl _
      refine ⟨hflow.closed hrefused.closed, hflow.datagrams.trans hrefused.datagrams,
        waiting_of_none hnone _, fun hj => hold ?_⟩
      rw [← hflow.peerAddr]
      exact (htable hj).2

theorem Accepts.steps (h : Accepts l) (hexclusive : Exclusive l) {event : ListenerEvent Addr}
    {l' : KcpListener K Addr} (hsteps : Steps seg api c l event l') : Accepts l' := by
  cases hsteps with
  | stay => exact h
  | act hact => exact h.modify _ fun s _ => hact.flow s
  | lost => exact h.same rfl rfl rfl rfl
  | given time peer raw packet allocated i hsending htable =>
    obtain ⟨s, hs, rfl⟩ := hexclusive.listed htable
    refine ⟨fun j packet' hj => ?_, h.ordered, h.spawned, fun {j t} ht hnot => ?_⟩
    · cases hj
      exact (List.getElem?_eq_some_iff.1 hs).1
    · obtain ⟨hclosed, hdatagrams, -, hother⟩ := h.refused ht hnot
      refine ⟨hclosed, hdatagrams, if_neg ?_, hother⟩
      rintro rfl
      have heq : s = t := Option.some.inj (hs.symm.trans ht)
      exact hother (heq ▸ htable)
  | fresh time peer raw packet allocated socket => exact h.fresh peer _ socket packet
  | refused time peer raw packet allocated socket hsending =>
    exact h.refuse peer _ socket packet hsending
  | sent i packet s hsending hs =>
    have hmem := h.mem_of_waiting hsending hs
    refine ⟨nofun, h.ordered, fun {j peer} hj => ?_, fun {j t} ht hnot => ?_⟩
    · obtain ⟨t, ht, hpeer⟩ := h.spawned hj
      refine ⟨if i = j then { t with inputTx := t.inputTx ++ [packet] } else t, ?_, ?_⟩
      · change (l.spawned.modify i _)[j]? = _
        rw [List.getElem?_modify, ht]
        rfl
      · split <;> exact hpeer
    · obtain ⟨t₀, ht₀, ⟨rfl, -⟩ | ⟨-, rfl⟩⟩ := spawned_modify ht
      · exact absurd hmem hnot
      · obtain ⟨hclosed, hdatagrams, -, hother⟩ := h.refused ht₀ hnot
        exact ⟨hclosed, hdatagrams, rfl, hother⟩
  | dropped =>
    refine ⟨nofun, h.ordered, h.spawned, fun ht hnot => ?_⟩
    obtain ⟨hclosed, hdatagrams, -, hother⟩ := h.refused ht hnot
    exact ⟨hclosed, hdatagrams, rfl, hother⟩
  | closed peer closeRx =>
    have hrest : Accepts { l with closeRx } := h.same rfl rfl rfl rfl
    exact hrest.closePeer peer
  | accepted stream acceptRx haccept =>
    have hstreams :
        streams { l with acceptRx, accepted := l.accepted ++ [stream] } = l.streams := by
      unfold streams
      rw [haccept, List.append_assoc]
      rfl
    exact h.same hstreams rfl rfl rfl
  | notified i time s hs hnotifying =>
    have hmodify := h.modify i (f := fun s => { s with updater := .notified }) fun t ht => by
      rw [hs] at ht
      cases ht
      exact ⟨⟨rfl, rfl, rfl, id⟩, rfl, by rw [hnotifying]; nofun, fun _ => rfl⟩
    exact hmodify.same rfl rfl rfl rfl

/-- **Main result.**  In every run the streams are accepted in the order in which their sessions
were made, each at most once and with the address of its peer; a session whose stream is not
handed over is closed, and is given no datagram. -/
theorem accepted_once (seg : Segment) (api : Kcp K) (c : KcpConfig)
    (events : List (ListenerEvent Addr)) :
    let l := Run.after (step seg api c) ({} : KcpListener K Addr) events
    (l.streams.map Prod.fst).Pairwise (· < ·) ∧
      (∀ stream ∈ l.streams, ∃ s, l.spawned[stream.1]? = some s ∧ s.peerAddr = stream.2) ∧
      ∀ i s, l.spawned[i]? = some s → i ∉ l.streams.map Prod.fst →
        s.closed = true ∧ s.given = [] ∧ s.inputTx = [] := by
  intro l
  have h : Exclusive l ∧ Accepts l := Run.invariant
    (fun l event (h : Exclusive l ∧ Accepts l) =>
      ⟨h.1.steps (step_steps event), h.2.steps h.1 (step_steps event)⟩)
    ⟨.start, .start⟩ events
  refine ⟨h.2.ordered, fun stream hmem => h.2.spawned hmem, fun i s hs hnot => ?_⟩
  obtain ⟨hclosed, hdatagrams, -, -⟩ := h.2.refused hs hnot
  exact ⟨hclosed, List.append_eq_nil_iff.1 hdatagrams⟩

end KcpListener

end RtFogros.Transport
