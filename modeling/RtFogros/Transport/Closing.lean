import RtFogros.Transport.Datagrams

/-!
# How sessions end, and what keeps them open

* `closed_rounds`: a session that is closed makes at most the round that it has begun, whatever its
  crate has still to send.  No run waits for `can_close`.
* `sessions_covered`: no task sleeps at a session whose updater has closed its socket.
* `notice_closes`: a notification closes every session of its peer that there was when it was sent,
  also one that had taken the place of the session that ended.
* `session_survives`: while the stream is kept, the updater finds the session active and the peer
  keeps to its conversation, a session that is `Alone` stays open and is given every datagram.
* `full_window_survives`: a session whose window is full stays open however long its peer is
  silent, since the flush of a full window counts as activity.  The run lemma is on the listener
  with the time of the session's last round (`clocked`), and `Flushing` is its invariant.
-/

namespace RtFogros.Transport

namespace KcpListener

variable {K Addr : Type} {seg : Segment} {api : Kcp K} {c : KcpConfig}
  {l l' : KcpListener K Addr} {event : ListenerEvent Addr}

/-! ## Rounds -/

/-- The rounds of the updater, with the one that it has begun. -/
def begun (s : KcpSession K Addr) : Nat := s.rounds + if s.updater = .locked then 1 else 0

theorem begun_takeInput (time : Clock) (s : KcpSession K Addr) :
    begun (s.takeInput api time) = begun s := by
  obtain hsame | ⟨buf, inputTx, -, -, htake⟩ := takeInput_cases api time s
  · rw [hsame]
  · rw [htake]
    rfl

/-- The updater of a closed session begins no round. -/
theorem begun_advance (time : Clock) {s : KcpSession K Addr} (hclosed : s.closed = true) :
    begun (s.advance api c time) ≤ begun s := by
  unfold KcpSession.advance
  split
  · rename_i hsleeping
    unfold begun
    rw [hsleeping, hclosed]
    exact Nat.le_refl _
  · rename_i hlocked
    unfold begun
    rw [hlocked]
    obtain ⟨hround, -⟩ | hround := round_cases api c time s
    · rw [hround]
      exact Nat.le_succ _
    · rw [hround]
      exact Nat.le_refl _
  · exact Nat.le_add_right ..
  · exact Nat.le_add_right ..
  · exact Nat.le_add_right ..
  · exact Nat.le_refl _
  · exact Nat.le_refl _

theorem Moves.begun {s t : KcpSession K Addr} (h : Moves api c event s t)
    (hclosed : s.closed = true) : begun t ≤ begun s := by
  cases h with
  | stay => exact Nat.le_refl _
  | act hs hact =>
    cases hact with
    | takeInput time => exact (begun_takeInput time s).le
    | advance time => exact begun_advance time hclosed
    | call => exact Nat.le_refl _
    | drop => exact Nat.le_refl _
  | close => exact Nat.le_refl _
  | push => exact Nat.le_refl _
  | notified hnotifying =>
    unfold KcpListener.begun
    rw [hnotifying]
    exact Nat.le_refl _

/-- The crate with 256 segments that nobody acknowledges. -/
def unacknowledged : Kcp (UInt32 × List Bytes) := { mailbox with waitSnd := fun _ => 256 }

variable [DecidableEq Addr]

/-- **Main result.**  Once a session is closed its updater makes at most the round that it has
begun, however much its crate has still to send: no run waits for `can_close`. -/
theorem closed_rounds (seg : Segment) (api : Kcp K) (c : KcpConfig) (l : KcpListener K Addr)
    (events : List (ListenerEvent Addr)) {i : Nat} {s : KcpSession K Addr}
    (hs : l.spawned[i]? = some s) (hclosed : s.closed = true) :
    ∃ t, (Run.after (step seg api c) l events).spawned[i]? = some t ∧ t.closed = true ∧
      t.rounds ≤ s.rounds + if s.updater = .locked then 1 else 0 := by
  let Inv (l : KcpListener K Addr) : Prop :=
    ∃ t : KcpSession K Addr, l.spawned[i]? = some t ∧ t.closed = true ∧ begun t ≤ begun s
  have hstep : ∀ l event, Inv l → Inv (step seg api c l event) := by
    rintro l event ⟨t, ht, htclosed, hbegun⟩
    obtain ⟨t', ht', hmoves⟩ := (step_steps event).exists_spawned ht
    exact ⟨t', ht', hmoves.kin.closed htclosed, (hmoves.begun htclosed).trans hbegun⟩
  obtain ⟨t, ht, htclosed, hbegun⟩ := Run.invariant hstep ⟨s, hs, hclosed, Nat.le_refl _⟩ events
  exact ⟨t, ht, htclosed, (Nat.le_add_right ..).trans hbegun⟩

theorem closed_rounds_sample :
    let l := Run.after (step kcpSegment unacknowledged (toKcpConfig "fast"))
      ({} : KcpListener (UInt32 × List Bytes) Nat)
      [.datagram ⟨1, 1⟩ 5 (segment 7 0 []) 9, .send, .update 0 ⟨2, 2⟩, .accept, .dropStream 0]
    ∃ t, (Run.after (step kcpSegment unacknowledged (toKcpConfig "fast")) l
        [.update 0 ⟨3, 3⟩, .update 0 ⟨4, 4⟩, .update 0 ⟨5, 5⟩]).spawned[0]? = some t ∧
      t.closed = true ∧ t.rounds ≤ 1 ∧ unacknowledged.waitSnd t.socket.socket.kcp = 256 := by
  intro l
  have hs : l.spawned[0]? = some _ := rfl
  obtain ⟨t, ht, hclosed, hrounds⟩ :=
    closed_rounds kcpSegment unacknowledged (toKcpConfig "fast") l
      [.update 0 ⟨3, 3⟩, .update 0 ⟨4, 4⟩, .update 0 ⟨5, 5⟩] hs rfl
  exact ⟨t, ht, hclosed, hrounds, rfl⟩

/-! ## Tasks that sleep at a session -/

omit [DecidableEq Addr] in
/-- The socket of a session that has ended is closed. -/
structure Awake (s : KcpSession K Addr) : Prop where
  covered : Covered s.socket
  closed : s.updater.ended = true → s.socket.socket.closed = true

omit [DecidableEq Addr] in
theorem Awake.advance (time : Clock) {s : KcpSession K Addr} (h : Awake s) :
    Awake (s.advance api c time) := by
  unfold KcpSession.advance
  split
  · refine ⟨h.covered, ?_⟩
    dsimp only
    split <;> nofun
  · obtain ⟨hround, -⟩ | hround := round_cases api c time s
    · rw [hround]
      exact ⟨h.covered, nofun⟩
    · have hflushed : Covered (if s.socket.socket.needFlush api then s.socket.io api (.flush time)
          else s.socket) := by
        split
        · exact h.covered.io _
        · exact h.covered
      have hupdated : Covered (Polled.io api (if s.socket.socket.needFlush api then
          s.socket.io api (.flush time) else s.socket) (.update time)) := hflushed.io _
      rw [hround]
      exact ⟨hupdated, nofun⟩
  · have hcovered : Covered (s.socket.io api .close) := h.covered.io _
    exact ⟨hcovered, fun _ => rfl⟩
  · rename_i hupdater
    exact ⟨h.covered, fun _ => h.closed (by rw [hupdater]; rfl)⟩
  · rename_i hupdater
    exact ⟨h.covered, fun _ => h.closed (by rw [hupdater]; rfl)⟩
  · exact h
  · exact h

omit [DecidableEq Addr] in
theorem Moves.awake {s t : KcpSession K Addr} (h : Moves api c event s t) (hs : Awake s) :
    Awake t := by
  cases h with
  | stay => exact hs
  | act _ hact =>
    cases hact with
    | takeInput time =>
      obtain hsame | ⟨buf, inputTx, -, -, htake⟩ := takeInput_cases api time s
      · rw [hsame]
        exact hs
      · have hcovered : Covered (s.socket.io api (.input time buf)) := hs.covered.io _
        rw [htake]
        exact ⟨hcovered, fun hended => closed_step (.io (.input time buf)) (hs.closed hended)⟩
    | advance time => exact hs.advance time
    | call call =>
      have hcovered : Covered (s.socket.step api call.op) := hs.covered.step _
      exact ⟨hcovered, fun hended => closed_step call.op (hs.closed hended)⟩
    | drop => exact ⟨hs.covered, hs.closed⟩
  | close => exact ⟨hs.covered, hs.closed⟩
  | push => exact ⟨hs.covered, hs.closed⟩
  | notified hnotifying => exact ⟨hs.covered, fun _ => hs.closed (by rw [hnotifying]; rfl)⟩

/-- **Main result.**  In every run of a listener every task that sleeps at a session's socket is
registered there, and none sleeps at a session whose updater has closed its socket: what the
application waits for at a session that ends, it is woken for. -/
theorem sessions_covered (seg : Segment) (api : Kcp K) (c : KcpConfig)
    (events : List (ListenerEvent Addr)) :
    let l := Run.after (step seg api c) ({} : KcpListener K Addr) events
    ∀ (i : Nat) (s : KcpSession K Addr), l.spawned[i]? = some s → Covered s.socket ∧
      (s.updater.ended = true → s.socket.sending = ∅ ∧ s.socket.receiving = ∅) := by
  intro l i s hs
  let Inv (l : KcpListener K Addr) : Prop :=
    ∀ (i : Nat) (s : KcpSession K Addr), l.spawned[i]? = some s → Awake s
  have h : Inv l := by
    refine Run.invariant (fun l event h i t ht => ?_) (fun i s hs => ?_) events
    · obtain ⟨s, hs, hmoves⟩ | ⟨-, peer, -, -, conv, socket, since, -, -, -, rfl | rfl⟩ :=
        (step_steps event).spawned ht
      · exact hmoves.awake (h i s hs)
      · exact ⟨.start socket, nofun⟩
      · exact ⟨.start socket, nofun⟩
    · cases hs
  obtain ⟨hcovered, hclosed⟩ := h i s hs
  exact ⟨hcovered, fun hended => hcovered.closed (hclosed hended)⟩

/-! ## Notifications -/

/-- No session of the peer with a number below `n` is open, or in the table. -/
def Cleared (l : KcpListener K Addr) (peer : Addr) (n : Nat) : Prop :=
  ∀ (j : Nat) (t : KcpSession K Addr), j < n → l.spawned[j]? = some t → t.peerAddr = peer →
    t.closed = true ∧ l.sessions peer ≠ some j

/-- A notification with the address that it carries. -/
def Carries (l : KcpListener K Addr) (notice : Nat × Nat) (peer : Addr) : Prop :=
  notice.2 ≤ l.spawned.length ∧
    ∃ s : KcpSession K Addr, l.spawned[notice.1]? = some s ∧ s.peerAddr = peer ∧
      s.updater.past = true

/-- The notifications that were handled, and those in the channel. -/
structure Notified (l : KcpListener K Addr) : Prop where
  once : (l.notices.map Prod.fst).Nodup
  queue : ∃ handled waiting, l.notices = handled ++ waiting ∧
    List.Forall₂ (Carries l) waiting l.closeRx ∧
    ∀ notice ∈ handled, ∃ peer, Carries l notice peer ∧ Cleared l peer notice.2

theorem Cleared.steps (hsteps : Steps seg api c l event l') {peer : Addr} {n : Nat}
    (hn : n ≤ l.spawned.length) (h : Cleared l peer n) : Cleared l' peer n := by
  intro j t hj ht hpeer
  obtain ⟨s, hs, hmoves⟩ | ⟨-, -, -, -, -, -, -, -, -, heq, -⟩ := hsteps.spawned ht
  · obtain ⟨hclosed, htable⟩ := h j s hj hs (hmoves.kin.peerAddr ▸ hpeer)
    refine ⟨hmoves.kin.closed hclosed, fun htable' => ?_⟩
    obtain hold | hnew := hsteps.sessions htable'
    · exact htable hold
    · omega
  · omega

theorem Carries.steps (hsteps : Steps seg api c l event l') {notice : Nat × Nat} {peer : Addr}
    (h : Carries l notice peer) : Carries l' notice peer := by
  obtain ⟨hle, s, hs, rfl, hpast⟩ := h
  obtain ⟨t, ht, hmoves⟩ := hsteps.exists_spawned hs
  exact ⟨hle.trans hsteps.length_le, t, ht, hmoves.kin.peerAddr, hmoves.past hpast⟩

omit [DecidableEq Addr] in
theorem Notified.start : Notified ({} : KcpListener K Addr) :=
  ⟨.nil, [], [], rfl, .nil, nofun⟩

/-- A closed peer has no open session. -/
theorem Exclusive.cleared (h : Exclusive l) (peer : Addr) (n : Nat) :
    Cleared (l.closePeer peer) peer n := by
  intro j t hj ht hpeer
  have hnone : (l.closePeer peer).sessions peer = none :=
    (closePeer_sessions ..).trans (if_pos rfl)
  refine ⟨?_, by simp [hnone]⟩
  by_contra hopen
  have htable := (h.closePeer peer).only ht (by simpa using hopen)
  rw [hpeer, hnone] at htable
  cases htable

omit [DecidableEq Addr] in
/-- A session that has not notified the listener is in none of its notifications. -/
theorem Notified.not_mem (h : Notified l) {i : Nat} {s : KcpSession K Addr}
    (hs : l.spawned[i]? = some s) (hpast : s.updater.past = false) :
    i ∉ l.notices.map Prod.fst := by
  intro hi
  obtain ⟨notice, hmem, rfl⟩ := List.mem_map.1 hi
  have hcarries : ∃ peer, Carries l notice peer := by
    obtain ⟨handled, waiting, hnotices, hqueue, hhandled⟩ := h.queue
    rw [hnotices, List.mem_append] at hmem
    obtain hmem | hmem := hmem
    · obtain ⟨peer, hcarries, -⟩ := hhandled notice hmem
      exact ⟨peer, hcarries⟩
    · obtain ⟨k, hk, rfl⟩ := List.mem_iff_getElem.1 hmem
      exact ⟨_, hqueue.get hk (hqueue.length_eq ▸ hk)⟩
  obtain ⟨peer, -, t, ht, -, hpast'⟩ := hcarries
  rw [hs] at ht
  cases ht
  rw [hpast] at hpast'
  cases hpast'

theorem Notified.steps (h : Notified l) (hexclusive : Exclusive l)
    (hsteps : Steps seg api c l event l') : Notified l' := by
  obtain ⟨handled, waiting, hnotices, hqueue, hhandled⟩ := h.queue
  have hqueue' : List.Forall₂ (Carries l') waiting l.closeRx :=
    hqueue.imp fun _ _ h => h.steps hsteps
  have hhandled' : ∀ notice ∈ handled, ∃ peer, Carries l' notice peer ∧
      Cleared l' peer notice.2 := by
    intro notice hmem
    obtain ⟨peer, hcarries, hcleared⟩ := hhandled notice hmem
    exact ⟨peer, hcarries.steps hsteps, hcleared.steps hsteps hcarries.1⟩
  -- every other step leaves the notifications and the channel
  have hsame : l'.notices = l.notices → l'.closeRx = l.closeRx → Notified l' := by
    intro hnotices' hclose
    exact ⟨hnotices' ▸ h.once, handled, waiting, hnotices'.trans hnotices, hclose ▸ hqueue',
      hhandled'⟩
  cases hsteps with
  | fresh time peer => exact hsame (closePeer_notices peer).1 (closePeer_notices peer).2
  | refused time peer raw packet allocated socket =>
    have hinsert := closePeer_notices (l := l) peer
    have hclose := closePeer_notices
      (l := (l.insert peer (seg.getConv packet) socket).note peer packet) peer
    exact hsame (hclose.1.trans hinsert.1) (hclose.2.trans hinsert.2)
  | closed peer closeRx hclose =>
    obtain ⟨hnotices', hclose'⟩ := closePeer_notices (l := { l with closeRx }) peer
    rw [hclose] at hqueue'
    obtain ⟨_, -⟩ | ⟨hcarries, hrest⟩ := hqueue'
    rename_i notice waiting
    have hexclusive' : Exclusive { l with closeRx } := ⟨hexclusive.listed, hexclusive.only⟩
    refine ⟨?_, handled ++ [notice], waiting, ?_, hclose' ▸ hrest, ?_⟩
    · rw [hnotices']
      exact h.once
    · rw [hnotices', List.append_assoc]
      exact hnotices
    · intro notice' hmem
      obtain hmem | hmem := List.mem_append.1 hmem
      · exact hhandled' notice' hmem
      · rw [List.mem_singleton.1 hmem]
        exact ⟨peer, hcarries, hexclusive'.cleared peer _⟩
  | notified i time s hs hnotifying =>
    have hcarries : Carries
        { l.modify i fun s => { s with updater := .notified } with
          closeRx := l.closeRx ++ [s.peerAddr]
          notices := l.notices ++ [(i, l.spawned.length)] } (i, l.spawned.length) s.peerAddr := by
      refine ⟨(List.length_modify ..).ge, { s with updater := .notified }, ?_, rfl, rfl⟩
      change (l.spawned.modify i _)[i]? = _
      rw [List.getElem?_modify_eq, hs]
      rfl
    refine ⟨?_, handled, waiting ++ [(i, l.spawned.length)], ?_,
      List.rel_append hqueue' (.cons hcarries .nil), hhandled'⟩
    · change ((l.notices ++ [(i, l.spawned.length)]).map Prod.fst).Nodup
      rw [List.map_append, List.map_singleton]
      refine List.nodup_append.2 ⟨h.once, List.nodup_singleton _, fun j hj k hk => ?_⟩
      rw [List.mem_singleton.1 hk]
      rintro rfl
      exact h.not_mem hs (by rw [hnotifying]; rfl) hj
    · change l.notices ++ _ = _
      rw [hnotices, List.append_assoc]
  | _ => exact hsame rfl rfl

/-- **Main result.**  In every run a session notifies the listener at most once, and once the
listener has handled a notification, no session of its peer that there was when it was sent is
open or in the table: a session that took the place of the one that ended is closed as well. -/
theorem notice_closes (seg : Segment) (api : Kcp K) (c : KcpConfig)
    (events : List (ListenerEvent Addr)) :
    let l := Run.after (step seg api c) ({} : KcpListener K Addr) events
    (l.notices.map Prod.fst).Nodup ∧ l.closeRx.length ≤ l.notices.length ∧
      ∀ notice ∈ l.notices.take (l.notices.length - l.closeRx.length), ∃ s,
        l.spawned[notice.1]? = some s ∧
        ∀ j t, j < notice.2 → l.spawned[j]? = some t → t.peerAddr = s.peerAddr →
          t.closed = true ∧ l.sessions t.peerAddr ≠ some j := by
  intro l
  have h : Exclusive l ∧ Notified l := Run.invariant
    (fun l event (h : Exclusive l ∧ Notified l) =>
      ⟨h.1.steps (step_steps event), h.2.steps h.1 (step_steps event)⟩)
    ⟨.start, .start⟩ events
  obtain ⟨handled, waiting, hnotices, hqueue, hhandled⟩ := h.2.queue
  have hlen := hqueue.length_eq
  have htake : l.notices.take (l.notices.length - l.closeRx.length) = handled := by
    rw [hnotices, List.length_append, ← hlen, Nat.add_sub_cancel, List.take_left]
  refine ⟨h.2.once, ?_, fun notice hmem => ?_⟩
  · rw [hnotices, List.length_append]
    omega
  · rw [htake] at hmem
    obtain ⟨peer, ⟨-, s, hs, rfl, -⟩, hcleared⟩ := hhandled notice hmem
    refine ⟨s, hs, fun j t hj ht hpeer => ?_⟩
    rw [hpeer]
    exact hcleared j t hj ht hpeer

/-- Peer 5 begins another conversation, and the end of the first session closes the second. -/
example :
    let l := Run.after (step kcpSegment mailbox (toKcpConfig "fast"))
      ({} : KcpListener (UInt32 × List Bytes) Nat)
      [.datagram ⟨1, 1⟩ 5 (segment 7 0 []) 9, .send, .datagram ⟨2, 2⟩ 5 (segment 8 0 []) 9, .send,
        .update 0 ⟨3, 3⟩, .update 0 ⟨3, 3⟩, .update 0 ⟨3, 3⟩, .closePeer]
    ∃ s, l.spawned[1]? = some s ∧ s.conv = 8 ∧ s.closed = true ∧ l.sessions 5 = none :=
  ⟨_, rfl, rfl, rfl, rfl⟩

/-! ## Sessions that stay open -/

/-- The session is open, and its updater is in its loop. -/
structure Runs (s : KcpSession K Addr) : Prop where
  closed : s.closed = false
  updater : s.updater = .sleeping ∨ s.updater = .locked

/-- Nothing is under way that closes the session: no notification of its peer is in the channel,
and every other session of the peer has sent its own. -/
structure Alone (l : KcpListener K Addr) (i : Nat) (peer : Addr) : Prop where
  runs : ∃ s : KcpSession K Addr, l.spawned[i]? = some s ∧ s.peerAddr = peer ∧ Runs s
  quiet : peer ∉ l.closeRx
  others : ∀ (j : Nat) (t : KcpSession K Addr), l.spawned[j]? = some t → j ≠ i →
    t.peerAddr = peer → t.updater.past = true

/-- The step does not close the session: its stream is not dropped, its updater does not find it
inactive, and its peer begins no other conversation. -/
def Spares (seg : Segment) (c : KcpConfig) (i : Nat) (l : KcpListener K Addr) :
    ListenerEvent Addr → Prop
  | .datagram _ peer raw allocated => ∀ s : KcpSession K Addr, l.spawned[i]? = some s →
    s.peerAddr = peer → seg.getConv (seg.stamp allocated raw) = s.conv ∨
      seg.getSn (seg.stamp allocated raw) ≠ 0
  | .dropStream j => j ≠ i
  | .update j time => j = i → ∀ s : KcpSession K Addr, l.spawned[i]? = some s →
    s.updater = .locked → s.elapsed time ≤ c.sessionExpire
  | _ => True

omit [DecidableEq Addr] in
/-- A round that finds the session active leaves it open. -/
theorem Runs.advance (time : Clock) {s : KcpSession K Addr} (h : Runs s)
    (hactive : s.updater = .locked → s.elapsed time ≤ c.sessionExpire) :
    Runs (s.advance api c time) := by
  unfold KcpSession.advance
  obtain hupdater | hupdater := h.updater
  · rw [hupdater]
    exact ⟨h.closed, .inr (by rw [h.closed]; rfl)⟩
  · have helapsed := hactive hupdater
    rw [hupdater]
    obtain ⟨-, hclosed | hlate⟩ | hround := round_cases api c time s
    · rw [h.closed] at hclosed
      cases hclosed
    · omega
    · dsimp only
      rw [hround]
      refine ⟨?_, .inl rfl⟩
      simp only [h.closed, Bool.false_or, decide_eq_false_iff_not]
      omega

omit [DecidableEq Addr] in
theorem Runs.act {s : KcpSession K Addr} (h : Runs s) {i : Nat}
    {f : KcpSession K Addr → KcpSession K Addr} (hs : l.spawned[i]? = some s)
    (hact : Acts api c l i event f) (hspares : Spares seg c i l event) : Runs (f s) := by
  cases hact with
  | takeInput time =>
    obtain hsame | ⟨buf, inputTx, -, -, htake⟩ := takeInput_cases api time s
    · rw [hsame]
      exact h
    · rw [htake]
      exact ⟨h.closed, h.updater⟩
  | advance time => exact h.advance time (hspares rfl s hs)
  | call => exact ⟨h.closed, h.updater⟩
  | drop => exact absurd rfl hspares

/-- A peer that is closed is another one's. -/
theorem closePeer_of_ne (hexclusive : Exclusive l) {i : Nat} {s : KcpSession K Addr}
    (hs : l.spawned[i]? = some s) {peer : Addr} (hne : s.peerAddr ≠ peer) :
    (l.closePeer peer).spawned[i]? = some s := by
  unfold closePeer
  split
  · exact hs
  · rename_i j hj
    change (l.spawned.modify j _)[i]? = _
    rw [List.getElem?_modify_ne, hs]
    rintro rfl
    obtain ⟨t, ht, hpeer⟩ := hexclusive.listed hj
    rw [hs] at ht
    cases ht
    exact hne hpeer

theorem insert_of_ne (hexclusive : Exclusive l) {i : Nat} {s : KcpSession K Addr}
    (hs : l.spawned[i]? = some s) {peer : Addr} (hne : s.peerAddr ≠ peer) (conv : UInt32)
    (socket : KcpSocket K) : (l.insert peer conv socket).spawned[i]? = some s := by
  have hclose := closePeer_of_ne hexclusive hs hne
  change ((l.closePeer peer).spawned ++ [_])[i]? = _
  rw [List.getElem?_append_left (List.getElem?_eq_some_iff.1 hclose).1, hclose]

section Alone

variable {i : Nat} {peer : Addr} (h : Alone l i peer)

include h

/-- The peer makes no session. -/
theorem Alone.not_opens (hexclusive : Exclusive l) (hrouted : Routed seg api l) {time : Clock}
    {peer' : Addr} {raw : Bytes} {allocated : UInt32}
    (hspares : Spares seg c i l (.datagram time peer' raw allocated))
    (hopens : Opens seg api l peer' (seg.stamp allocated raw)) : peer ≠ peer' := by
  rintro rfl
  obtain ⟨s, hs, rfl, hruns⟩ := h.runs
  obtain ⟨hsn, hconv⟩ := hopens i (hexclusive.only hs hruns.closed)
  rw [convOf_eq hs, hrouted.conv hs] at hconv
  obtain hsame | hlater := hspares s hs rfl
  · exact hconv (congrArg some hsame.symm)
  · exact hlater hsn

theorem Alone.runs_steps (hexclusive : Exclusive l) (hrouted : Routed seg api l)
    (hspares : Spares seg c i l event) (hsteps : Steps seg api c l event l') :
    ∃ t : KcpSession K Addr, l'.spawned[i]? = some t ∧ t.peerAddr = peer ∧ Runs t := by
  obtain ⟨s, hs, rfl, hruns⟩ := h.runs
  have hmodify : ∀ (j : Nat) (f : KcpSession K Addr → KcpSession K Addr),
      (j = i → (f s).peerAddr = s.peerAddr ∧ Runs (f s)) →
      ∃ t, (l.modify j f).spawned[i]? = some t ∧ t.peerAddr = s.peerAddr ∧ Runs t := by
    intro j f hf
    change ∃ t, (l.spawned.modify j f)[i]? = some t ∧ _
    rw [List.getElem?_modify, hs]
    refine ⟨_, rfl, ?_⟩
    dsimp only
    by_cases hj : j = i
    · rw [if_pos hj]
      exact hf hj
    · rw [if_neg hj]
      exact ⟨rfl, hruns⟩
  cases hsteps with
  | act hact =>
    refine hmodify _ _ fun hj => ?_
    subst hj
    exact ⟨(hact.flow s).peerAddr, hruns.act hs hact hspares⟩
  | fresh time peer' raw packet allocated socket hsending hpacket hopens =>
    have hne := h.not_opens hexclusive hrouted hspares (hpacket ▸ hopens)
    exact ⟨s, insert_of_ne hexclusive hs hne _ socket, rfl, hruns⟩
  | refused time peer' raw packet allocated socket hsending hpacket hopens =>
    have hne := h.not_opens hexclusive hrouted hspares (hpacket ▸ hopens)
    have hinsert := insert_of_ne hexclusive hs hne (seg.getConv packet) socket
    rw [closePeer_note]
    exact ⟨s, closePeer_of_ne (hexclusive.insert peer' _ socket) hinsert hne, rfl, hruns⟩
  | sent j packet =>
    exact hmodify j _ fun _ => ⟨rfl, hruns.closed, hruns.updater⟩
  | closed peer' closeRx hclose =>
    have hne : s.peerAddr ≠ peer' := by
      rintro rfl
      exact h.quiet (hclose ▸ List.mem_cons_self)
    have hexclusive' : Exclusive { l with closeRx } := ⟨hexclusive.listed, hexclusive.only⟩
    exact ⟨s, closePeer_of_ne hexclusive' hs hne, rfl, hruns⟩
  | notified j time t ht hnotifying =>
    refine hmodify j _ fun hj => ?_
    subst hj
    rw [hs] at ht
    cases ht
    obtain hupdater | hupdater := hruns.updater
    · rw [hnotifying] at hupdater
      cases hupdater
    · rw [hnotifying] at hupdater
      cases hupdater
  | _ => exact ⟨s, hs, rfl, hruns⟩

theorem Alone.quiet_steps (hsteps : Steps seg api c l event l') : peer ∉ l'.closeRx := by
  cases hsteps with
  | fresh time peer' => exact (closePeer_notices (l := l) peer').2 ▸ h.quiet
  | refused time peer' raw packet allocated socket =>
    have hinsert := (closePeer_notices (l := l) peer').2
    have hclose := (closePeer_notices
      (l := (l.insert peer' (seg.getConv packet) socket).note peer' packet) peer').2
    exact (hclose.trans hinsert) ▸ h.quiet
  | closed peer' closeRx hclose =>
    rw [(closePeer_notices (l := { l with closeRx }) peer').2]
    intro hmem
    exact h.quiet (hclose ▸ List.mem_cons_of_mem _ hmem)
  | notified j time t ht hnotifying =>
    intro hmem
    obtain hmem | hmem := List.mem_append.1 hmem
    · exact h.quiet hmem
    · -- the session that notifies is not the open one, nor another of its peer
      have hpeer := List.mem_singleton.1 hmem
      have hpast : t.updater.past = false := by rw [hnotifying]; rfl
      by_cases hj : j = i
      · subst hj
        obtain ⟨s, hs, -, hruns⟩ := h.runs
        rw [hs] at ht
        cases ht
        obtain hupdater | hupdater := hruns.updater
        · rw [hnotifying] at hupdater
          cases hupdater
        · rw [hnotifying] at hupdater
          cases hupdater
      · have hpast' := h.others j t ht hj hpeer.symm
        rw [hpast] at hpast'
        cases hpast'
  | _ => exact h.quiet

theorem Alone.steps (hexclusive : Exclusive l) (hrouted : Routed seg api l)
    (hspares : Spares seg c i l event) (hsteps : Steps seg api c l event l') :
    Alone l' i peer := by
  refine ⟨h.runs_steps hexclusive hrouted hspares hsteps, h.quiet_steps hsteps,
    fun j t ht hj hpeer => ?_⟩
  obtain ⟨s, hs, hmoves⟩ | ⟨time, peer', raw, allocated, conv, socket, since, rfl, hopens, -,
    hnew⟩ := hsteps.spawned ht
  · exact hmoves.past (h.others j s hs hj (hmoves.kin.peerAddr ▸ hpeer))
  · refine absurd hpeer ?_
    have hne := h.not_opens hexclusive hrouted hspares hopens
    rcases hnew with rfl | rfl
    · exact hne.symm
    · exact hne.symm

end Alone

/-- **Main result.**  A session that is open with its updater in its loop, with no notification of
its peer in the channel and no other session of the peer still to notify the listener, stays open
and in the table in every run that does not drop its stream, find it inactive or begin another
conversation of its peer; and it is given every datagram of its conversation. -/
theorem session_survives (hapi : Conversing seg api) (c : KcpConfig)
    (before events : List (ListenerEvent Addr)) {i : Nat} {peer : Addr}
    (halone : Alone (Run.after (step seg api c) ({} : KcpListener K Addr) before) i peer)
    (hspares : Run.Throughout (step seg api c) (Spares seg c i)
      (Run.after (step seg api c) ({} : KcpListener K Addr) before) events) :
    let l := Run.after (step seg api c) ({} : KcpListener K Addr) (before ++ events)
    ∃ s, l.spawned[i]? = some s ∧ s.peerAddr = peer ∧ s.closed = false ∧
      l.sessions peer = some i ∧ s.given ++ s.inputTx ++ l.waiting i = l.arrivals seg s := by
  intro l
  have h : Exclusive l ∧ Routed seg api l ∧ Alone l i peer := by
    obtain ⟨hexclusive, hrouted⟩ := routed_after hapi c before
    have hl : l = _ := Run.after_append _ _ before events
    rw [hl]
    refine hspares.invariant (fun l => Exclusive l ∧ Routed seg api l ∧ Alone l i peer)
      (fun l event h hspares => ?_) ⟨hexclusive, hrouted, halone⟩
    obtain ⟨hexclusive, hrouted, halone⟩ := h
    have hsteps : Steps seg api c l event (l.step seg api c event) := step_steps event
    exact ⟨hexclusive.steps hsteps, hrouted.steps hapi hexclusive hsteps,
      halone.steps hexclusive hrouted hspares hsteps⟩
  obtain ⟨hexclusive, hrouted, halone⟩ := h
  obtain ⟨s, hs, rfl, hruns⟩ := halone.runs
  have htable := hexclusive.only hs hruns.closed
  refine ⟨s, hs, rfl, hruns.closed, htable, hrouted.all hs htable ?_⟩
  rintro habort
  rcases hruns.updater with hupdater | hupdater <;> rw [habort] at hupdater <;> cases hupdater

/-- A session after its first datagram. -/
def sampleOpened : List (ListenerEvent Nat) := [.datagram ⟨1, 1⟩ 5 (segment 7 0 [1]) 9, .send]

def sampleKept : List (ListenerEvent Nat) :=
  [.takeInput 0 ⟨2, 2⟩, .update 0 ⟨3, 3⟩, .update 0 ⟨4, 4⟩,
    .datagram ⟨5, 5⟩ 5 (segment 7 1 [2]) 9, .send]

theorem session_survives_sample :
    let l := Run.after (step kcpSegment mailbox (toKcpConfig "fast"))
      ({} : KcpListener (UInt32 × List Bytes) Nat) (sampleOpened ++ sampleKept)
    ∃ s, l.spawned[0]? = some s ∧ s.peerAddr = 5 ∧ s.closed = false ∧ l.sessions 5 = some 0 ∧
      s.given ++ s.inputTx ++ l.waiting 0 = l.arrivals kcpSegment s := by
  have halone : Alone (Run.after (step kcpSegment mailbox (toKcpConfig "fast"))
      ({} : KcpListener (UInt32 × List Bytes) Nat) sampleOpened) 0 5 := by
    refine ⟨⟨_, rfl, rfl, rfl, .inl rfl⟩, List.not_mem_nil, fun j t ht hj => absurd ?_ hj⟩
    exact Nat.lt_one_iff.1 (List.getElem?_eq_some_iff.1 ht).1
  refine session_survives mailbox_conversing _ sampleOpened sampleKept halone
    ⟨trivial, fun _ s hs _ => ?_, fun _ s hs _ => ?_, fun s hs _ => .inl ?_, trivial, trivial⟩
  · cases hs
    decide
  · cases hs
    decide
  · cases hs
    decide

/-! ## Sessions with a full window -/

omit [DecidableEq Addr] in
/-- The clock that a step reads. -/
def timeOf : ListenerEvent Addr → Option Clock
  | .datagram time _ _ _ | .takeInput _ time | .update _ time => some time
  | .stream _ call => call.op.time
  | .send | .closePeer | .accept | .dropStream _ => none

omit [DecidableEq Addr] in
/-- The time of the round that the step is for the session. -/
def roundOf (i : Nat) (l : KcpListener K Addr) : ListenerEvent Addr → Option Clock
  | .update j time =>
    if j = i ∧ l.spawned[i]?.map KcpSession.updater = some .locked then some time else none
  | _ => none

/-- The listener and the time of the session's last round. -/
def clocked (seg : Segment) (api : Kcp K) (c : KcpConfig) (i : Nat) (p : KcpListener K Addr × Nat)
    (event : ListenerEvent Addr) : KcpListener K Addr × Nat :=
  (p.1.step seg api c event, ((roundOf i p.1 event).map Clock.instant).getD p.2)

/-- The session's stream is not dropped and its peer begins no other conversation, the clock does
not go back behind the last round, and a round that is due in time finds the window full and
flushes it without an error. -/
structure Flushes (seg : Segment) (api : Kcp K) (c : KcpConfig) (i : Nat)
    (p : KcpListener K Addr × Nat) (event : ListenerEvent Addr) : Prop where
  spares : (∀ time, event ≠ .update i time) → Spares seg c i p.1 event
  clock : ∀ time ∈ timeOf event, p.2 ≤ time.instant
  full : ∀ time ∈ roundOf i p.1 event, ∀ s : KcpSession K Addr, p.1.spawned[i]? = some s →
    time.instant ≤ p.2 + c.sessionExpire ∧ s.socket.socket.needFlush api = true ∧
      (api.flush s.socket.socket.kcp).1 = .ok ()

omit [DecidableEq Addr] in
theorem mem_roundOf {i : Nat} {time : Clock} (h : time ∈ roundOf i l event) :
    event = .update i time ∧ ∀ s : KcpSession K Addr, l.spawned[i]? = some s →
      s.updater = .locked := by
  unfold roundOf at h
  split at h
  · split at h
    · rename_i hround
      obtain ⟨rfl, hlocked⟩ := hround
      cases h
      refine ⟨rfl, fun s hs => ?_⟩
      rw [hs] at hlocked
      exact Option.some.inj hlocked
    · cases h
  · cases h

omit [DecidableEq Addr] in
/-- The flush of a full window counts as activity. -/
theorem lastUpdate_flush (time : Clock) {p : Polled K}
    (hok : (api.flush p.socket.kcp).1 = .ok ()) :
    (p.io api (.flush time)).socket.lastUpdate = time.instant := by
  obtain ⟨kcp, heq⟩ : ∃ kcp, api.flush p.socket.kcp = (.ok (), kcp) := ⟨_, Prod.ext hok rfl⟩
  have hcall : call api.flush p = .ok () { p with socket.kcp := kcp } := by
    unfold call
    rw [heq]
  have hrun : Transport.flush api time p =
      .ok () { p with socket := { p.socket with kcp, lastUpdate := time.instant } } :=
    EStateM.bind_eq_ok.2 ⟨(), _, hcall, rfl⟩
  change (Transport.flush api time p).state.socket.lastUpdate = _
  rw [hrun]
  rfl

omit [DecidableEq Addr] in
/-- A round that finds the session active flushes a full window. -/
theorem lastUpdate_round (time : Clock) {s : KcpSession K Addr} (hlocked : s.updater = .locked)
    (hclosed : s.closed = false) (hactive : s.elapsed time ≤ c.sessionExpire)
    (hneed : s.socket.socket.needFlush api = true)
    (hok : (api.flush s.socket.socket.kcp).1 = .ok ()) :
    (s.advance api c time).socket.socket.lastUpdate = time.instant := by
  unfold KcpSession.advance
  rw [hlocked]
  dsimp only
  obtain ⟨-, hclosed' | hlate⟩ | hround := round_cases api c time s
  · rw [hclosed] at hclosed'
    cases hclosed'
  · omega
  · rw [hround, if_pos hneed]
    exact (lastUpdate_update time _).trans (lastUpdate_flush time hok)

omit [DecidableEq Addr] in
/-- No step takes the time of a session's last activity back behind one that its clock is past. -/
theorem Moves.le_lastUpdate {s t : KcpSession K Addr} (h : Moves api c event s t) {last : Nat}
    (hclock : ∀ time ∈ timeOf event, last ≤ time.instant)
    (hs : last ≤ s.socket.socket.lastUpdate) : last ≤ t.socket.socket.lastUpdate := by
  cases h with
  | stay => exact hs
  | act _ hact =>
    cases hact with
    | takeInput time =>
      obtain hsame | ⟨buf, inputTx, -, -, htake⟩ := takeInput_cases api time s
      · rw [hsame]
        exact hs
      · rw [htake]
        exact le_lastUpdate_step (.io (.input time buf)) hclock hs
    | advance time =>
      unfold KcpSession.advance
      split <;> try exact hs
      obtain ⟨hround, -⟩ | hround := round_cases api c time s
      · rw [hround]
        exact hs
      · rw [hround]
        refine le_lastUpdate_step (.io (.update time)) hclock ?_
        split
        · exact le_lastUpdate_step (.io (.flush time)) hclock hs
        · exact hs
    | call call => exact le_lastUpdate_step call.op hclock hs
    | drop => exact hs
  | close => exact hs
  | push => exact hs
  | notified => exact hs

/-- The session is alone, and its last activity is not before its last round. -/
structure Flushing (seg : Segment) (api : Kcp K) (i : Nat) (peer : Addr)
    (p : KcpListener K Addr × Nat) : Prop where
  exclusive : Exclusive p.1
  routed : Routed seg api p.1
  alone : Alone p.1 i peer
  last : ∀ s : KcpSession K Addr, p.1.spawned[i]? = some s → p.2 ≤ s.socket.socket.lastUpdate

section Flushing

variable {i : Nat} {peer : Addr} {p : KcpListener K Addr × Nat} (h : Flushing seg api i peer p)

include h

/-- A round in time does not find the session inactive. -/
theorem Flushing.active {time : Clock} (htime : time.instant ≤ p.2 + c.sessionExpire)
    {s : KcpSession K Addr} (hs : p.1.spawned[i]? = some s) : s.elapsed time ≤ c.sessionExpire := by
  have hlast := h.last s hs
  unfold KcpSession.elapsed
  omega

theorem Flushing.spares (hflushes : Flushes seg api c i p event) : Spares seg c i p.1 event := by
  by_cases hupdate : ∃ time, event = .update i time
  · obtain ⟨time, rfl⟩ := hupdate
    intro _ s hs hlocked
    have hround : roundOf i p.1 (.update i time) = some time :=
      if_pos ⟨rfl, by rw [hs, Option.map_some, hlocked]⟩
    exact h.active (hflushes.full time hround s hs).1 hs
  · exact hflushes.spares fun time heq => hupdate ⟨time, heq⟩

theorem Flushing.step (hapi : Conversing seg api) (hflushes : Flushes seg api c i p event) :
    Flushing seg api i peer (clocked seg api c i p event) := by
  have hsteps : Steps seg api c p.1 event (p.1.step seg api c event) := step_steps event
  refine ⟨h.exclusive.steps hsteps, h.routed.steps hapi h.exclusive hsteps,
    h.alone.steps h.exclusive h.routed (h.spares hflushes) hsteps, fun t ht => ?_⟩
  obtain ⟨s, hs, -, hruns⟩ := h.alone.runs
  obtain ⟨t', ht', hmoves⟩ := hsteps.exists_spawned hs
  change (p.1.step seg api c event).spawned[i]? = some t at ht
  rw [ht] at ht'
  cases ht'
  unfold clocked
  cases hround : roundOf i p.1 event with
  | none => exact hmoves.le_lastUpdate hflushes.clock (h.last s hs)
  | some time =>
    -- the step is the round
    obtain ⟨rfl, hlocked⟩ := mem_roundOf hround
    obtain ⟨htime, hneed, hok⟩ := hflushes.full time hround s hs
    have hstep : p.1.step seg api c (.update i time) =
        p.1.modify i (KcpSession.advance api c time) := by
      unfold KcpListener.step KcpListener.update
      dsimp only
      rw [hs]
      exact if_neg (by rw [hlocked s hs]; nofun)
    rw [hstep] at ht
    change (p.1.spawned.modify i _)[i]? = some t at ht
    rw [List.getElem?_modify_eq, hs] at ht
    cases ht
    exact (lastUpdate_round time (hlocked s hs) hruns.closed (h.active htime hs) hneed hok).ge

end Flushing

/-- **Main result.**  A session that is open and `Alone`, as in `session_survives`, stays open and
in the table in every run in which its window is full whenever a round is due, however long its
peer is silent: if its stream is not dropped, its peer begins no other conversation, no flush fails
and the rounds are not further apart than the expiry time, the flush of each round counts as
activity. -/
theorem full_window_survives (hapi : Conversing seg api) (c : KcpConfig)
    (before events : List (ListenerEvent Addr)) {i : Nat} {peer : Addr} {s : KcpSession K Addr}
    (halone : Alone (Run.after (step seg api c) ({} : KcpListener K Addr) before) i peer)
    (hs : (Run.after (step seg api c) ({} : KcpListener K Addr) before).spawned[i]? = some s)
    (hflushes : Run.Throughout (clocked seg api c i) (Flushes seg api c i)
      (Run.after (step seg api c) ({} : KcpListener K Addr) before,
        s.socket.socket.lastUpdate) events) :
    let l := Run.after (step seg api c) ({} : KcpListener K Addr) (before ++ events)
    ∃ t, l.spawned[i]? = some t ∧ t.peerAddr = peer ∧ t.closed = false ∧
      (t.updater = .sleeping ∨ t.updater = .locked) ∧ l.sessions peer = some i := by
  intro l
  obtain ⟨hexclusive, hrouted⟩ := routed_after hapi c before
  have hstart : Flushing seg api i peer
      (Run.after (step seg api c) ({} : KcpListener K Addr) before,
        s.socket.socket.lastUpdate) := by
    refine ⟨hexclusive, hrouted, halone, fun t ht => ?_⟩
    rw [hs] at ht
    cases ht
    exact Nat.le_refl _
  have h := hflushes.invariant (Flushing seg api i peer)
    (fun p event h hflushes => h.step hapi hflushes) hstart
  have hl : (Run.after (clocked seg api c i) (Run.after (step seg api c)
      ({} : KcpListener K Addr) before, s.socket.socket.lastUpdate) events).1 = l := by
    have hl : l = _ := Run.after_append _ _ before events
    rw [hl]
    exact (List.foldl_hom Prod.fst fun _ _ => rfl).symm
  obtain ⟨t, ht, rfl, hruns⟩ := h.alone.runs
  have htable := h.exclusive.only ht hruns.closed
  rw [hl] at ht htable
  exact ⟨t, ht, rfl, hruns.closed, hruns.updater, htable⟩

theorem unacknowledged_conversing : Conversing kcpSegment unacknowledged where
  new := mailbox_conversing.new
  inputConv := mailbox_conversing.inputConv
  input := mailbox_conversing.input
  flushAck := mailbox_conversing.flushAck
  send := mailbox_conversing.send
  recv := mailbox_conversing.recv
  flush := mailbox_conversing.flush
  update := mailbox_conversing.update

/-- Two rounds of a session, 90 seconds apart. -/
theorem full_window_survives_sample :
    let l := Run.after (step kcpSegment unacknowledged (toKcpConfig "fast"))
      ({} : KcpListener (UInt32 × List Bytes) Nat)
      (sampleOpened ++ [.update 0 ⟨2, 2⟩, .update 0 ⟨90001, 90001⟩, .update 0 ⟨90002, 90002⟩,
        .update 0 ⟨180001, 180001⟩])
    ∃ t, l.spawned[0]? = some t ∧ t.peerAddr = 5 ∧ t.closed = false ∧
      (t.updater = .sleeping ∨ t.updater = .locked) ∧ l.sessions 5 = some 0 := by
  have halone : Alone (Run.after (step kcpSegment unacknowledged (toKcpConfig "fast"))
      ({} : KcpListener (UInt32 × List Bytes) Nat) sampleOpened) 0 5 := by
    refine ⟨⟨_, rfl, rfl, rfl, .inl rfl⟩, List.not_mem_nil, fun j t ht hj => absurd ?_ hj⟩
    exact Nat.lt_one_iff.1 (List.getElem?_eq_some_iff.1 ht).1
  refine full_window_survives unacknowledged_conversing (toKcpConfig "fast") sampleOpened _ halone
    rfl ⟨⟨fun h => absurd rfl (h _), ?_, ?_⟩, ⟨fun h => absurd rfl (h _), ?_, ?_⟩,
      ⟨fun h => absurd rfl (h _), ?_, ?_⟩, ⟨fun h => absurd rfl (h _), ?_, ?_⟩, trivial⟩
  · rintro time ⟨⟩
    decide
  · rintro time ⟨⟩
  · rintro time ⟨⟩
    decide
  · rintro time ⟨⟩ s hs
    cases hs
    exact ⟨by decide, rfl, rfl⟩
  · rintro time ⟨⟩
    decide
  · rintro time ⟨⟩
  · rintro time ⟨⟩
    decide
  · rintro time ⟨⟩ s hs
    cases hs
    exact ⟨by decide, rfl, rfl⟩

end KcpListener

end RtFogros.Transport
