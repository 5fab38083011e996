import RtFogros.Transport.Listener
import RtFogros.Transport.Wakers

/-!
# The sessions of a KCP listener

`one_open_session`: whatever peers send and however the tasks of the sessions and the application
interleave, a peer has at most one open session, and it is the one of the table.

`Steps` says once what a step of the listener does: to each session it does one of the moves of
`Moves`, and it makes a session, closes those of a peer, or leaves the table as it is.
`step_steps` unfolds the listener's functions for it, and everything that is proved of sessions,
here and in the modules after this one, follows from `Steps` alone: `Exclusive` for the table, and
elsewhere what was accepted, where the datagrams are and how sessions end.
-/

namespace RtFogros.Transport

namespace KcpListener

variable {K Addr : Type} {seg : Segment} {api : Kcp K} {c : KcpConfig} {l : KcpListener K Addr}

/-! ## What a step does to one session -/

/-- What a step does to one session. -/
inductive Acts (api : Kcp K) (c : KcpConfig) (l : KcpListener K Addr) (i : Nat) :
    ListenerEvent Addr → (KcpSession K Addr → KcpSession K Addr) → Prop where
  | takeInput (time : Clock) : Acts api c l i (.takeInput i time) (KcpSession.takeInput api time)
  | advance (time : Clock) (s : KcpSession K Addr) :
    l.spawned[i]? = some s → s.updater ≠ .notifying →
    Acts api c l i (.update i time) (KcpSession.advance api c time)
  | call (call : StreamCall) :
    i ∈ l.accepted.map Prod.fst →
    Acts api c l i (.stream i call) fun s => { s with socket := s.socket.step api call.op }
  | drop : i ∈ l.accepted.map Prod.fst → Acts api c l i (.dropStream i) KcpSession.close

/-- Every step keeps a session's peer and history, and opens none. -/
structure Kin (s t : KcpSession K Addr) : Prop where
  peerAddr : t.peerAddr = s.peerAddr
  conv : t.conv = s.conv
  since : t.since = s.since
  closed : s.closed = true → t.closed = true

/-- What happens in a session, apart from its channels: its datagrams stay what they are, and
where they are in order. -/
structure Flow (s t : KcpSession K Addr) : Prop extends Kin s t where
  datagrams : t.given ++ t.inputTx = s.given ++ s.inputTx
  aborted : s.updater = .aborted → t.updater = .aborted
  past : s.updater.past = true → t.updater.past = true

theorem Flow.refl (s : KcpSession K Addr) : Flow s s := ⟨⟨rfl, rfl, rfl, id⟩, rfl, id, id⟩

theorem Flow.close (s : KcpSession K Addr) : Flow s s.close :=
  ⟨⟨rfl, rfl, rfl, fun _ => rfl⟩, rfl, id, id⟩

theorem takeInput_cases (api : Kcp K) (time : Clock) (s : KcpSession K Addr) :
    s.takeInput api time = s ∨
      ∃ buf inputTx, s.updater ≠ .aborted ∧ s.inputTx = buf :: inputTx ∧
        s.takeInput api time =
          { s with
            socket := s.socket.io api (.input time buf), inputTx, given := s.given ++ [buf] } := by
  unfold KcpSession.takeInput
  split
  · exact .inl rfl
  rename_i habort
  split
  · exact .inl rfl
  · rename_i buf inputTx hqueue
    exact .inr ⟨buf, inputTx, habort, hqueue, rfl⟩

theorem flow_takeInput (time : Clock) (s : KcpSession K Addr) : Flow s (s.takeInput api time) := by
  obtain hsame | ⟨buf, inputTx, -, hqueue, htake⟩ := takeInput_cases api time s
  · rw [hsame]
    exact .refl s
  · rw [htake]
    refine ⟨⟨rfl, rfl, rfl, id⟩, ?_, id, id⟩
    rw [hqueue]
    exact List.append_assoc ..

/-- A round of the loop, or its end. -/
theorem round_cases (api : Kcp K) (c : KcpConfig) (time : Clock) (s : KcpSession K Addr) :
    s.round api c time = { s with updater := .leaving } ∧
      (s.closed = true ∨ c.sessionExpire < s.elapsed time) ∨
    s.round api c time =
      { s with
        closed := s.closed || s.elapsed time > c.sessionExpire
        socket := (if s.socket.socket.needFlush api then s.socket.io api (.flush time)
          else s.socket).io api (.update time)
        updater := .sleeping
        rounds := s.rounds + 1 } := by
  unfold KcpSession.round
  split
  · rename_i hclosed
    simp only [Bool.and_eq_true] at hclosed
    exact .inl ⟨rfl, .inl hclosed.1⟩
  split
  · exact .inl ⟨rfl, .inr (by omega)⟩
  · exact .inr rfl

theorem flow_round (time : Clock) {s : KcpSession K Addr} (hlocked : s.updater = .locked) :
    Flow s (s.round api c time) := by
  obtain ⟨hround, -⟩ | hround := round_cases api c time s
  · rw [hround]
    exact ⟨⟨rfl, rfl, rfl, id⟩, rfl, by rw [hlocked]; nofun, by rw [hlocked]; nofun⟩
  · rw [hround]
    refine ⟨⟨rfl, rfl, rfl, fun hclosed => ?_⟩, rfl, by rw [hlocked]; nofun, by rw [hlocked]; nofun⟩
    simp [hclosed]

theorem flow_advance (time : Clock) (s : KcpSession K Addr) : Flow s (s.advance api c time) := by
  unfold KcpSession.advance
  split
  · rename_i hsleeping
    exact ⟨⟨rfl, rfl, rfl, id⟩, rfl, by rw [hsleeping]; nofun, by rw [hsleeping]; nofun⟩
  · rename_i hlocked
    exact flow_round time hlocked
  · rename_i hleaving
    exact ⟨⟨rfl, rfl, rfl, id⟩, rfl, by rw [hleaving]; nofun, by rw [hleaving]; nofun⟩
  · rename_i hnotified
    exact ⟨⟨rfl, rfl, rfl, fun _ => rfl⟩, rfl, by rw [hnotified]; nofun, fun _ => rfl⟩
  · exact ⟨⟨rfl, rfl, rfl, id⟩, rfl, fun _ => rfl, fun _ => rfl⟩
  · exact .refl s
  · exact .refl s

theorem Acts.flow {i : Nat} {event : ListenerEvent Addr}
    {f : KcpSession K Addr → KcpSession K Addr} (h : Acts api c l i event f)
    (s : KcpSession K Addr) : Flow s (f s) := by
  cases h with
  | takeInput time => exact flow_takeInput time s
  | advance time => exact flow_advance time s
  | call call => exact ⟨⟨rfl, rfl, rfl, id⟩, rfl, id, id⟩
  | drop => exact .close s

theorem spawned_modify {i j : Nat} {f : KcpSession K Addr → KcpSession K Addr}
    {s : KcpSession K Addr} (h : (l.modify i f).spawned[j]? = some s) :
    ∃ t, l.spawned[j]? = some t ∧ (j = i ∧ s = f t ∨ j ≠ i ∧ s = t) := by
  change (l.spawned.modify i f)[j]? = some s at h
  rw [List.getElem?_modify] at h
  obtain ⟨t, ht, rfl⟩ := Option.map_eq_some_iff.1 h
  refine ⟨t, ht, ?_⟩
  by_cases heq : i = j
  · exact .inl ⟨heq.symm, if_pos heq⟩
  · exact .inr ⟨fun h => heq h.symm, if_neg heq⟩

/-- What a step may do to a session. -/
inductive Moves (api : Kcp K) (c : KcpConfig) (event : ListenerEvent Addr)
    (s : KcpSession K Addr) : KcpSession K Addr → Prop where
  | stay : Moves api c event s s
  | act {l : KcpListener K Addr} {i : Nat} {f : KcpSession K Addr → KcpSession K Addr} :
    l.spawned[i]? = some s → Acts api c l i event f → Moves api c event s (f s)
  | close : Moves api c event s s.close
  | push (packet : Bytes) : Moves api c event s { s with inputTx := s.inputTx ++ [packet] }
  | notified : s.updater = .notifying → Moves api c event s { s with updater := .notified }

variable {event : ListenerEvent Addr}

theorem modify_moves {i j : Nat} {f : KcpSession K Addr → KcpSession K Addr}
    {t : KcpSession K Addr} (ht : (l.modify i f).spawned[j]? = some t)
    (hf : ∀ s, l.spawned[i]? = some s → Moves api c event s (f s)) :
    ∃ s, l.spawned[j]? = some s ∧ Moves api c event s t := by
  obtain ⟨s, hs, ⟨rfl, rfl⟩ | ⟨-, rfl⟩⟩ := spawned_modify ht
  · exact ⟨s, hs, hf s hs⟩
  · exact ⟨_, hs, .stay⟩

theorem Moves.kin {s t : KcpSession K Addr} (h : Moves api c event s t) : Kin s t := by
  cases h with
  | stay => exact (Flow.refl s).toKin
  | act hs hact => exact (hact.flow s).toKin
  | close => exact (Flow.close s).toKin
  | push => exact ⟨rfl, rfl, rfl, id⟩
  | notified => exact ⟨rfl, rfl, rfl, id⟩

theorem Moves.past {s t : KcpSession K Addr} (h : Moves api c event s t)
    (hpast : s.updater.past = true) : t.updater.past = true := by
  cases h with
  | stay => exact hpast
  | act hs hact => exact (hact.flow s).past hpast
  | close => exact hpast
  | push => exact hpast
  | notified => rfl

/-- The datagram for the session that waits for a place in its channel. -/
def waiting (l : KcpListener K Addr) (i : Nat) : List Bytes :=
  match l.sending with
  | some (j, packet) => if j = i then [packet] else []
  | none => []

theorem waiting_of_none (h : l.sending = none) (i : Nat) : l.waiting i = [] := by
  unfold waiting
  rw [h]

/-! ## What a step does -/

/-- The table has no session of the peer with this conversation. -/
def Foreign (api : Kcp K) (l : KcpListener K Addr) (peer : Addr) (conv : UInt32) : Prop :=
  ∀ i, l.sessions peer = some i → l.convOf api i ≠ some conv

/-- The datagram makes a session: the table has none of the peer, or it is the first datagram of
another conversation. -/
def Opens (seg : Segment) (api : Kcp K) (l : KcpListener K Addr) (peer : Addr) (packet : Bytes) :
    Prop :=
  ∀ i, l.sessions peer = some i →
    seg.getSn packet = 0 ∧ l.convOf api i ≠ some (seg.getConv packet)

variable [DecidableEq Addr]

/-- What a step does. -/
inductive Steps (seg : Segment) (api : Kcp K) (c : KcpConfig) (l : KcpListener K Addr) :
    ListenerEvent Addr → KcpListener K Addr → Prop where
  | stay (event : ListenerEvent Addr) : Steps seg api c l event l
  | act {event : ListenerEvent Addr} {i : Nat} {f : KcpSession K Addr → KcpSession K Addr} :
    Acts api c l i event f → Steps seg api c l event (l.modify i f)
  | lost (time : Clock) (peer : Addr) (raw packet : Bytes) (allocated : UInt32) :
    l.sending = none → Foreign api l peer (seg.getConv packet) →
    Steps seg api c l (.datagram time peer raw allocated) (l.note peer packet)
  | given (time : Clock) (peer : Addr) (raw packet : Bytes) (allocated : UInt32) (i : Nat) :
    l.sending = none → l.sessions peer = some i →
    l.convOf api i = some (seg.getConv packet) →
    Steps seg api c l (.datagram time peer raw allocated)
      { l.note peer packet with sending := some (i, packet) }
  | fresh (time : Clock) (peer : Addr) (raw packet : Bytes) (allocated : UInt32)
      (socket : KcpSocket K) :
    l.sending = none → packet = seg.stamp allocated raw → Opens seg api l peer packet →
    KcpSocket.new api c (seg.getConv packet) time = .ok socket →
    Steps seg api c l (.datagram time peer raw allocated)
      { (l.insert peer (seg.getConv packet) socket).note peer packet with
        acceptRx := l.acceptRx ++ [(l.spawned.length, peer)]
        sending := some (l.spawned.length, packet) }
  | refused (time : Clock) (peer : Addr) (raw packet : Bytes) (allocated : UInt32)
      (socket : KcpSocket K) :
    l.sending = none → packet = seg.stamp allocated raw → Opens seg api l peer packet →
    KcpSocket.new api c (seg.getConv packet) time = .ok socket →
    Steps seg api c l (.datagram time peer raw allocated)
      (((l.insert peer (seg.getConv packet) socket).note peer packet).closePeer peer)
  | sent (i : Nat) (packet : Bytes) (s : KcpSession K Addr) :
    l.sending = some (i, packet) → l.spawned[i]? = some s → s.updater ≠ .aborted →
    Steps seg api c l .send
      { l.modify i fun s => { s with inputTx := s.inputTx ++ [packet] } with sending := none }
  | dropped (i : Nat) (packet : Bytes) (s : KcpSession K Addr) :
    l.sending = some (i, packet) → l.spawned[i]? = some s → s.updater = .aborted →
    Steps seg api c l .send { l with sending := none }
  | closed (peer : Addr) (closeRx : List Addr) :
    l.closeRx = peer :: closeRx →
    Steps seg api c l .closePeer ({ l with closeRx }.closePeer peer)
  | accepted (stream : Nat × Addr) (acceptRx : List (Nat × Addr)) :
    l.acceptRx = stream :: acceptRx →
    Steps seg api c l .accept { l with acceptRx, accepted := l.accepted ++ [stream] }
  | notified (i : Nat) (time : Clock) (s : KcpSession K Addr) :
    l.spawned[i]? = some s → s.updater = .notifying →
    Steps seg api c l (.update i time)
      { l.modify i fun s => { s with updater := .notified } with
        closeRx := l.closeRx ++ [s.peerAddr]
        notices := l.notices ++ [(i, l.spawned.length)] }

theorem closePeer_acceptRx (peer : Addr) : (l.closePeer peer).acceptRx = l.acceptRx := by
  unfold closePeer
  split <;> rfl

theorem closePeer_length (peer : Addr) :
    (l.closePeer peer).spawned.length = l.spawned.length := by
  unfold closePeer
  split
  · rfl
  · exact List.length_modify ..

/-- The session of a datagram, or what became of it. -/
theorem getOrCreate_cases (api : Kcp K) (c : KcpConfig) (l : KcpListener K Addr) (time : Clock)
    (peer : Addr) (conv sn : UInt32) :
    (∃ i, l.sessions peer = some i ∧
      l.getOrCreate api c time peer conv sn = (.ok (i, false), l)) ∨
    (∀ i, l.sessions peer = some i → sn = 0 ∧ l.convOf api i ≠ some conv) ∧
      ((∃ e, l.getOrCreate api c time peer conv sn = (.error e, l)) ∨
        ∃ socket, KcpSocket.new api c conv time = .ok socket ∧
          l.getOrCreate api c time peer conv sn =
            (.ok (l.spawned.length, true), l.insert peer conv socket)) := by
  have hcreate : (∃ e, l.create api c time peer conv = (.error e, l)) ∨
      ∃ socket, KcpSocket.new api c conv time = .ok socket ∧
        l.create api c time peer conv =
          (.ok (l.spawned.length, true), l.insert peer conv socket) := by
    unfold create
    split
    · exact .inl ⟨_, rfl⟩
    · rename_i socket hnew
      exact .inr ⟨socket, hnew, rfl⟩
  unfold getOrCreate
  split
  · rename_i hnone
    refine .inr ⟨fun i hi => ?_, hcreate⟩
    rw [hnone] at hi
    cases hi
  · rename_i i hi
    split
    · rename_i hother
      simp only [Bool.and_eq_true, decide_eq_true_eq] at hother
      refine .inr ⟨fun j hj => ?_, hcreate⟩
      rw [hi] at hj
      cases hj
      exact hother
    · exact .inl ⟨i, hi, rfl⟩

theorem receive_steps (hsending : l.sending = none) (time : Clock) (peer : Addr) (raw : Bytes)
    (allocated : UInt32) :
    Steps seg api c l (.datagram time peer raw allocated)
      (l.receive seg api c time peer raw allocated) := by
  unfold receive
  split
  · exact .stay _
  rename_i hlong
  have hconv : (if seg.getConv raw = 0 then allocated else seg.getConv raw) =
      seg.getConv (seg.stamp allocated raw) := by
    unfold Segment.stamp
    split
    · rw [seg.getConv_setConv _ _ (Nat.le_of_not_lt hlong)]
    · rfl
  dsimp only
  rw [hconv]
  obtain ⟨packet, hpacket⟩ : ∃ packet, packet = seg.stamp allocated raw := ⟨_, rfl⟩
  rw [← hpacket]
  obtain ⟨i, hi, hget⟩ | ⟨hopens, ⟨e, hget⟩ | ⟨socket, hnew, hget⟩⟩ :=
    getOrCreate_cases api c l time peer (seg.getConv packet) (seg.getSn packet)
  · rw [hget]
    dsimp only
    split
    · rename_i hconv
      exact .given time peer raw packet allocated i hsending hi hconv
    · rename_i hconv
      refine .lost time peer raw packet allocated hsending fun j hj => ?_
      rw [hi] at hj
      cases hj
      exact hconv
  · rw [hget]
    exact .lost time peer raw packet allocated hsending fun j hj => (hopens j hj).2
  · rw [hget]
    dsimp only
    split
    · have haccept : ((l.insert peer (seg.getConv packet) socket).note peer packet).acceptRx =
          l.acceptRx := closePeer_acceptRx peer
      rw [haccept]
      exact .fresh time peer raw packet allocated socket hsending hpacket hopens hnew
    · exact .refused time peer raw packet allocated socket hsending hpacket hopens hnew

theorem step_steps (event : ListenerEvent Addr) :
    Steps seg api c l event (l.step seg api c event) := by
  cases event with
  | datagram time peer raw allocated =>
    unfold step
    dsimp only
    split
    · exact .stay _
    · rename_i hsending
      exact receive_steps (by simpa using hsending) time peer raw allocated
  | send =>
    unfold step send
    dsimp only
    split
    · exact .stay _
    rename_i i packet hsending
    split
    · exact .stay _
    rename_i s hs
    split
    · rename_i habort
      exact .dropped i packet s hsending hs habort
    · rename_i habort
      split
      · exact .sent i packet s hsending hs habort
      · exact .stay _
  | closePeer =>
    unfold step takeClose
    dsimp only
    split
    · exact .stay _
    split
    · exact .stay _
    · rename_i peer closeRx hclose
      exact .closed peer closeRx hclose
  | accept =>
    unfold step accept
    dsimp only
    split
    · exact .stay _
    · rename_i stream acceptRx haccept
      exact .accepted stream acceptRx haccept
  | dropStream i =>
    unfold step
    dsimp only
    split
    · rename_i hmem
      exact .act (.drop hmem)
    · exact .stay _
  | stream i call =>
    unfold step
    dsimp only
    split
    · rename_i hmem
      exact .act (.call call hmem)
    · exact .stay _
  | takeInput i time => exact .act (.takeInput time)
  | update i time =>
    unfold step update
    dsimp only
    split
    · exact .stay _
    rename_i s hs
    split
    · rename_i hnotifying
      split
      · exact .notified i time s hs hnotifying
      · exact .stay _
    · rename_i hnotifying
      exact .act (.advance time s hs hnotifying)

/-! ## The table and the sessions -/

theorem spawned_closePeer {peer : Addr} {j : Nat} {s : KcpSession K Addr}
    (h : (l.closePeer peer).spawned[j]? = some s) :
    ∃ t, l.spawned[j]? = some t ∧
      (l.sessions peer = some j ∧ s = t.close ∨ l.sessions peer ≠ some j ∧ s = t) := by
  unfold closePeer at h
  split at h
  · rename_i hnone
    exact ⟨s, h, .inr ⟨by simp [hnone], rfl⟩⟩
  · rename_i i hi
    obtain ⟨t, ht, ⟨rfl, hs⟩ | ⟨hne, hs⟩⟩ := spawned_modify h
    · exact ⟨t, ht, .inl ⟨hi, hs⟩⟩
    · refine ⟨t, ht, .inr ⟨fun hj => ?_, hs⟩⟩
      rw [hi] at hj
      exact hne (Option.some.inj hj).symm

theorem closePeer_sessions (peer peer' : Addr) :
    (l.closePeer peer).sessions peer' = if peer' = peer then none else l.sessions peer' := by
  unfold closePeer
  split
  · rename_i hnone
    split
    · rename_i heq
      rw [heq, hnone]
    · rfl
  · exact Function.update_apply ..

theorem closePeer_received (peer : Addr) : (l.closePeer peer).received = l.received := by
  unfold closePeer
  split <;> rfl

theorem spawned_insert {peer : Addr} {conv : UInt32} {socket : KcpSocket K} {j : Nat}
    {s : KcpSession K Addr} (h : (l.insert peer conv socket).spawned[j]? = some s) :
    (j < l.spawned.length ∧ (l.closePeer peer).spawned[j]? = some s) ∨
      j = l.spawned.length ∧ s = .new socket peer conv l.received.length := by
  change ((l.closePeer peer).spawned ++
    [KcpSession.new socket peer conv (l.closePeer peer).received.length])[j]? = some s at h
  rw [closePeer_received] at h
  rcases Nat.lt_or_ge j l.spawned.length with hlt | hge
  · rw [List.getElem?_append_left (by rwa [closePeer_length])] at h
    exact .inl ⟨hlt, h⟩
  · rw [List.getElem?_append_right (by rwa [closePeer_length]), closePeer_length,
      List.getElem?_singleton] at h
    split at h
    · refine .inr ⟨by omega, (Option.some.inj h).symm⟩
    · cases h

theorem spawned_insert_self (peer : Addr) (conv : UInt32) (socket : KcpSocket K) :
    (l.insert peer conv socket).spawned[l.spawned.length]? =
      some (.new socket peer conv l.received.length) := by
  have hlen := closePeer_length (l := l) peer
  change ((l.closePeer peer).spawned ++
    [KcpSession.new socket peer conv (l.closePeer peer).received.length])[l.spawned.length]? = _
  rw [closePeer_received, List.getElem?_append_right hlen.le, hlen, Nat.sub_self]
  rfl

theorem insert_sessions (peer peer' : Addr) (conv : UInt32) (socket : KcpSocket K) :
    (l.insert peer conv socket).sessions peer' =
      if peer' = peer then some l.spawned.length else l.sessions peer' := by
  change Function.update (l.closePeer peer).sessions peer
    (some (l.closePeer peer).spawned.length) peer' = _
  rw [Function.update_apply, closePeer_length, closePeer_sessions]
  split <;> rfl

/-- What becomes of a session of the listener when one is closed or made. -/
theorem exists_spawned_closePeer {j : Nat} {s : KcpSession K Addr}
    (hs : l.spawned[j]? = some s) (peer : Addr) :
    ∃ t, (l.closePeer peer).spawned[j]? = some t ∧ Flow s t := by
  have hlt : j < (l.closePeer peer).spawned.length := by
    rw [closePeer_length]
    exact (List.getElem?_eq_some_iff.1 hs).1
  obtain ⟨t, ht⟩ : ∃ t, (l.closePeer peer).spawned[j]? = some t :=
    ⟨_, List.getElem?_eq_getElem hlt⟩
  obtain ⟨s', hs', hst⟩ := spawned_closePeer ht
  rw [hs] at hs'
  cases hs'
  refine ⟨t, ht, ?_⟩
  rcases hst with ⟨-, rfl⟩ | ⟨-, rfl⟩
  · exact .close _
  · exact .refl _

theorem exists_spawned_insert {j : Nat} {s : KcpSession K Addr} (hs : l.spawned[j]? = some s)
    (peer : Addr) (conv : UInt32) (socket : KcpSocket K) :
    ∃ t, (l.insert peer conv socket).spawned[j]? = some t ∧ Flow s t := by
  obtain ⟨t, ht, hst⟩ := exists_spawned_closePeer hs peer
  refine ⟨t, ?_, hst⟩
  change ((l.closePeer peer).spawned ++ [_])[j]? = _
  rw [List.getElem?_append_left (List.getElem?_eq_some_iff.1 ht).1, ht]

theorem closePeer_sending (peer : Addr) : (l.closePeer peer).sending = l.sending := by
  unfold closePeer
  split <;> rfl

theorem insert_sending (peer : Addr) (conv : UInt32) (socket : KcpSocket K) :
    (l.insert peer conv socket).sending = l.sending := closePeer_sending peer

theorem closePeer_note (peer peer' : Addr) (packet : Bytes) :
    (l.note peer' packet).closePeer peer = (l.closePeer peer).note peer' packet := by
  have hsessions : (l.note peer' packet).sessions peer = l.sessions peer := rfl
  unfold closePeer
  rw [hsessions]
  cases l.sessions peer <;> rfl

theorem closePeer_notices (peer : Addr) :
    (l.closePeer peer).notices = l.notices ∧ (l.closePeer peer).closeRx = l.closeRx := by
  unfold closePeer
  split <;> exact ⟨rfl, rfl⟩

/-! ## What becomes of a session -/

variable {l' : KcpListener K Addr}

theorem closePeer_moves {peer : Addr} {j : Nat} {t : KcpSession K Addr}
    (ht : (l.closePeer peer).spawned[j]? = some t) :
    ∃ s, l.spawned[j]? = some s ∧ Moves api c event s t := by
  obtain ⟨s, hs, ⟨-, rfl⟩ | ⟨-, rfl⟩⟩ := spawned_closePeer ht
  · exact ⟨s, hs, .close⟩
  · exact ⟨_, hs, .stay⟩

/-- A session after a step was there before, or is new, and perhaps refused. -/
theorem Steps.spawned (h : Steps seg api c l event l') {j : Nat} {t : KcpSession K Addr}
    (ht : l'.spawned[j]? = some t) :
    (∃ s, l.spawned[j]? = some s ∧ Moves api c event s t) ∨
      ∃ time peer raw allocated conv socket since,
        event = .datagram time peer raw allocated ∧
        Opens seg api l peer (seg.stamp allocated raw) ∧ j = l.spawned.length ∧
        (t = .new socket peer conv since ∨ t = (KcpSession.new socket peer conv since).close) := by
  cases h with
  | stay => exact .inl ⟨t, ht, .stay⟩
  | act hact => exact .inl (modify_moves ht fun s hs => .act hs hact)
  | lost => exact .inl ⟨t, ht, .stay⟩
  | given => exact .inl ⟨t, ht, .stay⟩
  | fresh time peer raw packet allocated socket hsending hpacket hopens hnew =>
    obtain ⟨-, ht⟩ | ⟨hj, rfl⟩ := spawned_insert ht
    · exact .inl (closePeer_moves ht)
    · exact .inr ⟨time, peer, raw, allocated, _, socket, _, rfl, hpacket ▸ hopens, hj, .inl rfl⟩
  | refused time peer raw packet allocated socket hsending hpacket hopens hnew =>
    obtain ⟨s, hs, hst⟩ := spawned_closePeer ht
    obtain ⟨hlt, hs⟩ | ⟨hj, rfl⟩ := spawned_insert hs
    · obtain ⟨htable, -⟩ | ⟨-, rfl⟩ := hst
      · have hself : (l.insert peer (seg.getConv packet) socket).sessions peer =
            some l.spawned.length := (insert_sessions ..).trans (if_pos rfl)
        have hj := Option.some.inj (hself.symm.trans htable)
        exact absurd hlt (hj ▸ Nat.lt_irrefl _)
      · exact .inl (closePeer_moves hs)
    · refine .inr ⟨time, peer, raw, allocated, seg.getConv packet, socket, l.received.length, rfl,
        hpacket ▸ hopens, hj, ?_⟩
      obtain ⟨-, rfl⟩ | ⟨-, rfl⟩ := hst
      · exact .inr rfl
      · exact .inl rfl
  | sent i packet => exact .inl (modify_moves ht fun s _ => .push packet)
  | dropped => exact .inl ⟨t, ht, .stay⟩
  | closed peer closeRx => exact .inl (closePeer_moves (l := { l with closeRx }) ht)
  | accepted => exact .inl ⟨t, ht, .stay⟩
  | notified i time s hs hnotifying =>
    refine .inl (modify_moves ht fun s' hs' => .notified ?_)
    rw [hs] at hs'
    cases hs'
    exact hnotifying

theorem Steps.length_le (h : Steps seg api c l event l') :
    l.spawned.length ≤ l'.spawned.length := by
  have hinsert : ∀ (peer : Addr) (conv : UInt32) (socket : KcpSocket K),
      (l.insert peer conv socket).spawned.length = l.spawned.length + 1 := by
    intro peer conv socket
    change ((l.closePeer peer).spawned ++ [_]).length = _
    rw [List.length_append, closePeer_length]
    rfl
  cases h with
  | act | sent | notified => exact (List.length_modify ..).ge
  | fresh time peer raw packet allocated socket =>
    exact (Nat.le_succ _).trans (hinsert peer _ socket).ge
  | refused time peer raw packet allocated socket =>
    rw [closePeer_length]
    exact (Nat.le_succ _).trans (hinsert peer _ socket).ge
  | closed peer closeRx => exact (closePeer_length (l := { l with closeRx }) peer).ge
  | _ => exact Nat.le_refl _

theorem Steps.exists_spawned (h : Steps seg api c l event l') {j : Nat} {s : KcpSession K Addr}
    (hs : l.spawned[j]? = some s) : ∃ t, l'.spawned[j]? = some t ∧ Moves api c event s t := by
  have hlt := (List.getElem?_eq_some_iff.1 hs).1
  obtain ⟨t, ht⟩ : ∃ t, l'.spawned[j]? = some t :=
    ⟨_, List.getElem?_eq_getElem (hlt.trans_le h.length_le)⟩
  obtain ⟨s', hs', hmoves⟩ | ⟨-, -, -, -, -, -, -, -, -, hj, -⟩ := h.spawned ht
  · rw [hs] at hs'
    cases hs'
    exact ⟨t, ht, hmoves⟩
  · exact absurd hlt (hj ▸ Nat.lt_irrefl _)

/-- A session enters the table only when it is made. -/
theorem Steps.sessions (h : Steps seg api c l event l') {peer : Addr} {j : Nat}
    (hj : l'.sessions peer = some j) : l.sessions peer = some j ∨ j = l.spawned.length := by
  have hclose : ∀ {l : KcpListener K Addr} {peer' : Addr},
      (l.closePeer peer').sessions peer = some j → l.sessions peer = some j := by
    intro l peer' h
    rw [closePeer_sessions] at h
    split at h
    · cases h
    · exact h
  have hinsert : ∀ (peer' : Addr) (conv : UInt32) (socket : KcpSocket K),
      (l.insert peer' conv socket).sessions peer = some j →
        l.sessions peer = some j ∨ j = l.spawned.length := by
    intro peer' conv socket h
    rw [insert_sessions] at h
    split at h
    · exact .inr (Option.some.inj h).symm
    · exact .inl h
  cases h with
  | fresh time peer' raw packet allocated socket =>
    exact hinsert peer' (seg.getConv packet) socket hj
  | refused time peer raw packet allocated socket =>
    rw [closePeer_note] at hj
    exact hinsert _ (seg.getConv packet) socket (hclose hj)
  | closed peer' closeRx => exact .inl (hclose (l := { l with closeRx }) hj)
  | _ => exact .inl hj

/-! ## One open session for each peer -/

/-- The table lists sessions under their peers, and every open one. -/
structure Exclusive (l : KcpListener K Addr) : Prop where
  listed : ∀ {peer i}, l.sessions peer = some i →
    ∃ s, l.spawned[i]? = some s ∧ s.peerAddr = peer
  only : ∀ {i s}, l.spawned[i]? = some s → s.closed = false → l.sessions s.peerAddr = some i

omit [DecidableEq Addr] in
theorem Exclusive.start : Exclusive ({} : KcpListener K Addr) := ⟨nofun, nofun⟩

omit [DecidableEq Addr] in
theorem Exclusive.modify (h : Exclusive l) (i : Nat) {f : KcpSession K Addr → KcpSession K Addr}
    (hf : ∀ s, Kin s (f s)) : Exclusive (l.modify i f) := by
  refine ⟨fun {peer j} hj => ?_, fun {j s} hs hopen => ?_⟩
  · obtain ⟨s, hs, hpeer⟩ := h.listed hj
    refine ⟨if i = j then f s else s, ?_, ?_⟩
    · change (l.spawned.modify i f)[j]? = _
      rw [List.getElem?_modify, hs]
      rfl
    · split
      · rw [(hf s).peerAddr, hpeer]
      · exact hpeer
  · obtain ⟨t, ht, ⟨-, rfl⟩ | ⟨-, rfl⟩⟩ := spawned_modify hs
    · rw [(hf t).peerAddr]
      refine h.only ht ?_
      by_contra hclosed
      rw [(hf t).closed (by simpa using hclosed)] at hopen
      cases hopen
    · exact h.only ht hopen

theorem Exclusive.closePeer (h : Exclusive l) (peer : Addr) : Exclusive (l.closePeer peer) := by
  refine ⟨fun {peer' j} hj => ?_, fun {j s} hs hopen => ?_⟩
  · rw [closePeer_sessions] at hj
    split at hj
    · cases hj
    obtain ⟨s, hs, hpeer⟩ := h.listed hj
    obtain ⟨t, ht, hst⟩ := exists_spawned_closePeer hs peer
    exact ⟨t, ht, hst.peerAddr.trans hpeer⟩
  · obtain ⟨t, ht, ⟨-, rfl⟩ | ⟨hj, rfl⟩⟩ := spawned_closePeer hs
    · cases hopen
    · have honly := h.only ht hopen
      rw [closePeer_sessions, if_neg, honly]
      intro hpeer
      exact hj (hpeer ▸ honly)

theorem Exclusive.insert (h : Exclusive l) (peer : Addr) (conv : UInt32) (socket : KcpSocket K) :
    Exclusive (l.insert peer conv socket) := by
  have hclose := h.closePeer peer
  refine ⟨fun {peer' j} hj => ?_, fun {j s} hs hopen => ?_⟩
  · rw [insert_sessions] at hj
    split at hj
    · rename_i hpeer
      cases hj
      exact ⟨_, spawned_insert_self peer conv socket, hpeer.symm⟩
    · obtain ⟨s, hs, hpeer'⟩ := h.listed hj
      obtain ⟨t, ht, hst⟩ := exists_spawned_insert hs peer conv socket
      exact ⟨t, ht, hst.peerAddr.trans hpeer'⟩
  · rw [insert_sessions]
    obtain ⟨hlt, hs⟩ | ⟨rfl, rfl⟩ := spawned_insert hs
    · have honly := hclose.only hs hopen
      rw [closePeer_sessions] at honly
      split at honly
      · cases honly
      · rename_i hpeer
        rw [if_neg hpeer, honly]
    · exact if_pos rfl

theorem Exclusive.steps (h : Exclusive l) {event : ListenerEvent Addr} {l' : KcpListener K Addr}
    (hsteps : Steps seg api c l event l') : Exclusive l' := by
  cases hsteps with
  | stay => exact h
  | act hact => exact h.modify _ fun s => (hact.flow s).toKin
  | lost => exact ⟨h.listed, h.only⟩
  | given => exact ⟨h.listed, h.only⟩
  | fresh time peer raw packet allocated socket =>
    have hinsert := h.insert peer (seg.getConv packet) socket
    exact ⟨hinsert.listed, hinsert.only⟩
  | refused time peer raw packet allocated socket =>
    have hinsert := h.insert peer (seg.getConv packet) socket
    have hnote : Exclusive ((l.insert peer (seg.getConv packet) socket).note peer packet) :=
      ⟨hinsert.listed, hinsert.only⟩
    exact hnote.closePeer peer
  | sent i packet =>
    have hmodify := h.modify i (f := fun s => { s with inputTx := s.inputTx ++ [packet] })
      fun _ => ⟨rfl, rfl, rfl, id⟩
    exact ⟨hmodify.listed, hmodify.only⟩
  | dropped => exact ⟨h.listed, h.only⟩
  | closed peer closeRx =>
    have hrest : Exclusive { l with closeRx } := ⟨h.listed, h.only⟩
    exact hrest.closePeer peer
  | accepted => exact ⟨h.listed, h.only⟩
  | notified i =>
    have hmodify := h.modify i (f := fun s => { s with updater := .notified })
      fun _ => ⟨rfl, rfl, rfl, id⟩
    exact ⟨hmodify.listed, hmodify.only⟩

theorem exclusive_after (seg : Segment) (api : Kcp K) (c : KcpConfig)
    (events : List (ListenerEvent Addr)) :
    Exclusive (Run.after (step seg api c) ({} : KcpListener K Addr) events) :=
  Run.invariant (fun _ event h => h.steps (step_steps event)) .start events

/-- **Main result.**  In every run a peer has at most one open session, the one of the table; a
session that the table no longer lists is closed. -/
theorem one_open_session (seg : Segment) (api : Kcp K) (c : KcpConfig)
    (events : List (ListenerEvent Addr)) :
    let l := Run.after (step seg api c) ({} : KcpListener K Addr) events
    ∀ i s, l.spawned[i]? = some s → s.closed = false →
      l.sessions s.peerAddr = some i ∧
      ∀ j t, l.spawned[j]? = some t → t.closed = false → t.peerAddr = s.peerAddr → j = i := by
  intro l i s hs hopen
  have h : Exclusive l := exclusive_after seg api c events
  refine ⟨h.only hs hopen, fun j t ht htopen hpeer => ?_⟩
  have hj := h.only ht htopen
  rw [hpeer, h.only hs hopen] at hj
  exact (Option.some.inj hj).symm

end KcpListener

end RtFogros.Transport
