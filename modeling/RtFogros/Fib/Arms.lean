import RtFogros.Fib.Handler
import Mathlib.Data.List.Sigma

/-!
# What the handler's arms do

`PacketStep` lists once what serving a packet can do to the handler and which sends
it makes.  The facts every later argument about packets needs follow from it: the
table stays, the processed guids grow, a processed guid is not sent again, a new one
is sent to all the entries it is meant for.

Where the handler goes on, `serve` gives its sends as one filter of the entries of the topic,
although the source makes them in a loop whose body differs by the arm; the loops are gone from
there on.
-/

namespace RtFogros

namespace FibHandler

variable {Tx : Type}

/-! ## The loops -/

/-- The entries a packet is meant for, `defaultInterface` being the default network
interface. -/
def Served (defaultInterface : String) (action : GdpAction) (entry : FibConnection Tx × Nat) :
    Prop :=
  match action with
  | .forward => Listens .receiver entry
  | .request => Listens .requestReceiver entry ∧
      (entry.1.interface = some "ros" ∨ entry.1.interface = some defaultInterface)
  | .response => Listens .responseReceiver entry
  | _ => False

instance (defaultInterface : String) (action : GdpAction) (entry : FibConnection Tx × Nat) :
    Decidable (Served defaultInterface action entry) := by
  cases action <;> unfold Served <;> infer_instance

/-- The sends that serve a packet completely. -/
def serve (h : FibHandler Tx) (defaultInterface : String) (pkt : GDPPacket) : List (Sent Tx) :=
  ((h.receiversOf pkt.gdpname).zipIdx.filter (Served defaultInterface pkt.action ·)).map
    (sendTo pkt)

theorem forwardLoop_eq (pkt : GDPPacket) (entries : List (FibConnection Tx × Nat))
    (processed : Finset (Option GDPName)) :
    forwardLoop pkt entries processed =
      (if entries.filter (Listens .receiver ·) = [] then processed else insert pkt.guid processed,
        (entries.filter (Listens .receiver ·)).map (sendTo pkt)) := by
  induction entries generalizing processed with
  | nil => rfl
  | cons entry rest ih =>
    unfold forwardLoop
    by_cases hlistens : Listens .receiver entry
    · rw [if_pos hlistens, ih, List.filter_cons_of_pos (by simpa using hlistens)]
      dsimp only
      split <;> simp
    · rw [if_neg hlistens, ih, List.filter_cons_of_neg (by simpa using hlistens)]

theorem requestLoop_cons (d : String) (pkt : GDPPacket) (entry : FibConnection Tx × Nat)
    (rest : List (FibConnection Tx × Nat)) :
    (¬ Served d .request entry ∧ entry.1.interface = none ∧
      requestLoop d pkt (entry :: rest) = ⟨false, {}⟩) ∨
    (¬ Served d .request entry ∧ requestLoop d pkt (entry :: rest) = requestLoop d pkt rest) ∨
    (Served d .request entry ∧ requestLoop d pkt (entry :: rest) =
      match pkt.guid with
      | none => ⟨false, { sends := [sendTo pkt entry] }⟩
      | some guid => ⟨(requestLoop d pkt rest).finished,
          { sends := sendTo pkt entry :: (requestLoop d pkt rest).output.sends
            logs := .request guid pkt.source entry.1 ::
              (requestLoop d pkt rest).output.logs }⟩) := by
  rw [requestLoop]
  by_cases hlistens : Listens .requestReceiver entry
  · rw [if_pos hlistens]
    rcases hinterface : entry.1.interface with _ | interface
    · refine .inl ⟨?_, rfl, rfl⟩
      rintro ⟨-, h⟩
      simp [hinterface] at h
    · by_cases hroute : interface = "ros" ∨ interface = d
      · exact .inr (.inr ⟨⟨hlistens, by simpa [hinterface] using hroute⟩, if_pos hroute⟩)
      · refine .inr (.inl ⟨?_, if_neg hroute⟩)
        rintro ⟨-, h⟩
        exact hroute (by simpa [hinterface] using h)
  · exact .inr (.inl ⟨fun h => hlistens h.1, if_neg hlistens⟩)

theorem requestLoop_sublist (d : String) (pkt : GDPPacket)
    (entries : List (FibConnection Tx × Nat)) :
    (requestLoop d pkt entries).output.sends.Sublist
      ((entries.filter (Served d .request ·)).map (sendTo pkt)) := by
  induction entries with
  | nil => exact .slnil
  | cons entry rest ih =>
    rcases requestLoop_cons d pkt entry rest with ⟨-, -, heq⟩ | ⟨hserved, heq⟩ | ⟨hserved, heq⟩
    · rw [heq]
      exact List.nil_sublist _
    · rw [heq, List.filter_cons_of_neg (by simpa using hserved)]
      exact ih
    · rw [heq, List.filter_cons_of_pos (by simpa using hserved), List.map_cons]
      cases pkt.guid with
      | none => exact .cons_cons _ (List.nil_sublist _)
      | some guid => exact .cons_cons _ ih

/-- A loop that was not cut short has served every entry. -/
theorem requestLoop_finished {d : String} {pkt : GDPPacket}
    {entries : List (FibConnection Tx × Nat)} (h : (requestLoop d pkt entries).finished = true) :
    (requestLoop d pkt entries).output.sends =
      (entries.filter (Served d .request ·)).map (sendTo pkt) := by
  induction entries with
  | nil => rfl
  | cons entry rest ih =>
    rcases requestLoop_cons d pkt entry rest with ⟨-, -, heq⟩ | ⟨hserved, heq⟩ | ⟨hserved, heq⟩
    · rw [heq] at h
      cases h
    · rw [heq] at h ⊢
      rw [List.filter_cons_of_neg (by simpa using hserved)]
      exact ih h
    · rw [heq] at h ⊢
      rw [List.filter_cons_of_pos (by simpa using hserved), List.map_cons]
      rcases hguid : pkt.guid with _ | guid
      · rw [hguid] at h
        cases h
      · rw [hguid] at h
        exact congrArg _ (ih h)

/-- A loop that has sent something and was not cut short had a guid to log. -/
theorem requestLoop_guid {d : String} {pkt : GDPPacket} {entries : List (FibConnection Tx × Nat)}
    (h : (requestLoop d pkt entries).finished = true)
    (hsends : (requestLoop d pkt entries).output.sends ≠ []) : pkt.guid.isSome := by
  induction entries with
  | nil => exact absurd rfl hsends
  | cons entry rest ih =>
    rcases requestLoop_cons d pkt entry rest with ⟨-, -, heq⟩ | ⟨-, heq⟩ | ⟨-, heq⟩
    · rw [heq] at h
      cases h
    · rw [heq] at h hsends
      exact ih h hsends
    · rw [heq] at h
      cases hguid : pkt.guid with
      | none =>
        rw [hguid] at h
        cases h
      | some guid => rfl

theorem requestLoop_finishes {d : String} {pkt : GDPPacket} (hguid : pkt.guid.isSome)
    {entries : List (FibConnection Tx × Nat)}
    (hentries : ∀ entry ∈ entries, entry.1.interface.isSome) :
    (requestLoop d pkt entries).finished = true := by
  obtain ⟨guid, hguid⟩ := Option.isSome_iff_exists.1 hguid
  induction entries with
  | nil => rfl
  | cons entry rest ih =>
    have hrest := ih fun e he => hentries e (List.mem_cons_of_mem _ he)
    rcases requestLoop_cons d pkt entry rest with ⟨-, hnone, -⟩ | ⟨-, heq⟩ | ⟨-, heq⟩
    · have := hentries entry List.mem_cons_self
      rw [hnone] at this
      cases this
    · rw [heq]
      exact hrest
    · rw [heq, hguid]
      exact hrest

/-- The latency table after a packet: a request with a new guid notes its time. -/
def notedLatency (h : FibHandler Tx) (reading : Reading) (pkt : GDPPacket) :
    GDPName → Option Nat :=
  if pkt.action = .request ∧ pkt.guid ∉ h.processedRequests then
    Function.update h.requestLatencyTable pkt.gdpname (some reading.now)
  else h.requestLatencyTable

/-- What the handler does with one packet. -/
inductive PacketStep (h : FibHandler Tx) (reading : Reading) (pkt : GDPPacket) :
    Fib Tx × FibOutput Tx → Prop
  | abort : PacketStep h reading pkt (.aborted, {})
  | idle (logs : List (LogLine Tx))
      (hwhy : pkt.guid ∈ h.processedRequests ∨ reading.defaultInterface = none ∨
        ∀ d, h.serve d pkt = []) :
      PacketStep h reading pkt
        (.running { h with requestLatencyTable := h.notedLatency reading pkt }, { logs })
  | round (haction : pkt.action = .forward ∨ pkt.action = .response)
      (hfresh : pkt.guid ∉ h.processedRequests) (sends : List (Sent Tx))
      (hsends : ∀ d, sends = h.serve d pkt) (logs : List (LogLine Tx)) :
      PacketStep h reading pkt
        (.running { h with processedRequests := insert pkt.guid h.processedRequests },
          { sends, logs })
  | request (haction : pkt.action = .request) (hfresh : pkt.guid ∉ h.processedRequests)
      (d : String) (hd : reading.defaultInterface = some d) :
      PacketStep h reading pkt
        (if (requestLoop d pkt (h.receiversOf pkt.gdpname).zipIdx).finished then
            .running { h with requestLatencyTable := h.notedLatency reading pkt }
          else .aborted,
          (requestLoop d pkt (h.receiversOf pkt.gdpname).zipIdx).output)

theorem notedLatency_of_ne {h : FibHandler Tx} {reading : Reading} {pkt : GDPPacket}
    (haction : pkt.action ≠ .request) : h.notedLatency reading pkt = h.requestLatencyTable :=
  if_neg fun hnew => haction hnew.1

theorem notedLatency_of_dup {h : FibHandler Tx} {reading : Reading} {pkt : GDPPacket}
    (hdup : pkt.guid ∈ h.processedRequests) : h.notedLatency reading pkt = h.requestLatencyTable :=
  if_neg fun hnew => hnew.2 hdup

theorem PacketStep.ignored {h : FibHandler Tx} {reading : Reading} {pkt : GDPPacket}
    (logs : List (LogLine Tx)) (hnoted : h.notedLatency reading pkt = h.requestLatencyTable)
    (hwhy : pkt.guid ∈ h.processedRequests ∨ reading.defaultInterface = none ∨
      ∀ d, h.serve d pkt = []) :
    PacketStep h reading pkt (.running h, { logs }) := by
  have hidle := PacketStep.idle logs hwhy
  rwa [hnoted] at hidle

theorem serve_forward {h : FibHandler Tx} {pkt : GDPPacket} (haction : pkt.action = .forward)
    (d : String) : h.serve d pkt =
      ((h.receiversOf pkt.gdpname).zipIdx.filter (Listens .receiver ·)).map (sendTo pkt) := by
  unfold serve
  rw [haction]
  rfl

theorem serve_response {h : FibHandler Tx} {pkt : GDPPacket} (haction : pkt.action = .response)
    (d : String) : h.serve d pkt =
      ((h.receiversOf pkt.gdpname).zipIdx.filter (Listens .responseReceiver ·)).map
        (sendTo pkt) := by
  unfold serve
  rw [haction]
  rfl

theorem forwardArm_step {h : FibHandler Tx} {reading : Reading} {pkt : GDPPacket}
    (haction : pkt.action = .forward) : PacketStep h reading pkt (h.forwardArm pkt) := by
  unfold forwardArm
  have hnoted : h.notedLatency reading pkt = h.requestLatencyTable :=
    notedLatency_of_ne (by rw [haction]; decide)
  by_cases hdup : pkt.guid ∈ h.processedRequests
  · rw [if_pos hdup]
    exact .ignored [] hnoted (.inl hdup)
  rw [if_neg hdup, forwardLoop_eq]
  dsimp only
  by_cases hnone : (h.receiversOf pkt.gdpname).zipIdx.filter (Listens .receiver ·) = []
  · have hserve : ∀ d, h.serve d pkt = [] := by
      intro d
      rw [serve_forward haction, hnone, List.map_nil]
    rw [if_pos hnone, hnone]
    exact .ignored [] hnoted (.inr (.inr hserve))
  · rw [if_neg hnone]
    exact .round (.inl haction) hdup _ (fun d => (serve_forward haction d).symm) []

theorem requestArm_step {h : FibHandler Tx} {reading : Reading} {pkt : GDPPacket}
    (haction : pkt.action = .request) : PacketStep h reading pkt (h.requestArm reading pkt) := by
  unfold requestArm
  by_cases hdup : pkt.guid ∈ h.processedRequests
  · rw [if_pos hdup]
    cases pkt.guid with
    | none => exact .abort
    | some guid => exact .ignored _ (notedLatency_of_dup hdup) (.inl hdup)
  have hnoted : Function.update h.requestLatencyTable pkt.gdpname (some reading.now) =
      h.notedLatency reading pkt := (if_pos ⟨haction, hdup⟩).symm
  rw [if_neg hdup, hnoted]
  dsimp only
  rcases hd : reading.defaultInterface with _ | d
  · exact .idle [] (.inr (.inl hd))
  · exact .request haction hdup d hd

theorem responseArm_step {h : FibHandler Tx} {reading : Reading} {pkt : GDPPacket}
    (haction : pkt.action = .response) : PacketStep h reading pkt (h.responseArm reading pkt) := by
  unfold responseArm
  cases h.requestLatencyTable pkt.gdpname with
  | none => exact .abort
  | some requested =>
    rcases hguid : pkt.guid with _ | guid
    · exact .abort
    dsimp only
    by_cases hclock : reading.now < requested
    · rw [if_pos hclock]
      exact .abort
    rw [if_neg hclock]
    by_cases hdup : pkt.guid ∈ h.processedRequests
    · rw [← hguid, if_pos hdup]
      exact .ignored _ (notedLatency_of_dup hdup) (.inl hdup)
    · rw [← hguid, if_neg hdup]
      exact .round (.inr haction) hdup _ (fun d => (serve_response haction d).symm) _

theorem packetArm_step (h : FibHandler Tx) (reading : Reading) (pkt : GDPPacket) :
    PacketStep h reading pkt (h.packetArm reading pkt) := by
  unfold packetArm
  split
  · rename_i haction
    exact forwardArm_step haction
  · rename_i haction
    exact requestArm_step haction
  · rename_i haction
    exact responseArm_step haction
  · rename_i hforward hrequest hresponse
    refine .ignored [] (notedLatency_of_ne hrequest) (.inr (.inr fun d => ?_))
    unfold serve
    rw [List.map_eq_nil_iff, List.filter_eq_nil_iff]
    intro entry _
    have hserved : ¬ Served d pkt.action entry := by
      cases haction : pkt.action <;> first | exact not_false | contradiction
    simpa using hserved

/-! ## What follows for every packet -/

section Packet

variable {h h' : FibHandler Tx} {reading : Reading} {pkt : GDPPacket}

theorem packetArm_running (hrun : (h.packetArm reading pkt).1 = .running h') :
    h'.ribStateTable = h.ribStateTable ∧ h.processedRequests ⊆ h'.processedRequests ∧
      h'.requestLatencyTable = h.notedLatency reading pkt := by
  have hstep := packetArm_step h reading pkt
  generalize h.packetArm reading pkt = result at hstep hrun
  cases hstep with
  | abort => cases hrun
  | idle =>
    cases hrun
    exact ⟨rfl, subset_rfl, rfl⟩
  | round haction =>
    cases hrun
    have hnoted : h.notedLatency reading pkt = h.requestLatencyTable :=
      notedLatency_of_ne (by rcases haction with haction | haction <;> rw [haction] <;> decide)
    exact ⟨rfl, Finset.subset_insert _ _, hnoted.symm⟩
  | request =>
    dsimp only at hrun
    split at hrun
    · cases hrun
      exact ⟨rfl, subset_rfl, rfl⟩
    · cases hrun

theorem packetArm_dup (hdup : pkt.guid ∈ h.processedRequests) :
    (h.packetArm reading pkt).2.sends = [] := by
  have hstep := packetArm_step h reading pkt
  generalize h.packetArm reading pkt = result at hstep
  cases hstep with
  | abort => rfl
  | idle => rfl
  | round _ hfresh => exact absurd hdup hfresh
  | request _ hfresh => exact absurd hdup hfresh

/-- The packet arm sends to entries the packet is meant for, to each at most
once and in the order of the table. -/
theorem packetArm_sublist (h : FibHandler Tx) (reading : Reading) (pkt : GDPPacket) :
    (h.packetArm reading pkt).2.sends.Sublist
      (h.serve (reading.defaultInterface.getD "") pkt) := by
  have hstep := packetArm_step h reading pkt
  generalize h.packetArm reading pkt = result at hstep
  cases hstep with
  | abort => exact List.nil_sublist _
  | idle => exact List.nil_sublist _
  | round _ _ sends hsends =>
    rw [← hsends]
  | request haction _ d hd =>
    unfold serve
    rw [haction, hd]
    exact requestLoop_sublist d pkt _

/-- A packet with a new guid is sent to every entry it is meant for, unless the
handler aborts over it. -/
theorem packetArm_complete (hfresh : pkt.guid ∉ h.processedRequests) {d : String}
    (hd : reading.defaultInterface = some d) (hrun : (h.packetArm reading pkt).1 = .running h') :
    (h.packetArm reading pkt).2.sends = h.serve d pkt := by
  have hstep := packetArm_step h reading pkt
  generalize h.packetArm reading pkt = result at hstep hrun
  cases hstep with
  | abort => cases hrun
  | idle _ hwhy =>
    rcases hwhy with hdup | hnone | hserve
    · exact absurd hdup hfresh
    · rw [hd] at hnone
      cases hnone
    · exact (hserve d).symm
  | round _ _ sends hsends => exact hsends d
  | request haction _ d' hd' =>
    obtain rfl : d = d' := Option.some.inj (hd.symm.trans hd')
    unfold serve
    rw [haction]
    dsimp only at hrun
    split at hrun
    · rename_i hfinished
      exact requestLoop_finished hfinished
    · cases hrun

theorem mem_serve {d : String} {sent : Sent Tx} :
    sent ∈ h.serve d pkt ↔ ∃ entry ∈ (h.receiversOf pkt.gdpname).zipIdx,
      Served d pkt.action entry ∧ sendTo pkt entry = sent := by
  simp [serve, and_assoc]

theorem packetArm_pkt {sent : Sent Tx} (hsent : sent ∈ (h.packetArm reading pkt).2.sends) :
    sent.pkt = pkt := by
  obtain ⟨entry, _, _, rfl⟩ := mem_serve.1 ((packetArm_sublist h reading pkt).subset hsent)
  rfl

theorem packetArm_slots (h : FibHandler Tx) (reading : Reading) (pkt : GDPPacket) :
    ((h.packetArm reading pkt).2.sends.map Sent.slot).Nodup := by
  refine .sublist ((packetArm_sublist h reading pkt).map Sent.slot) ?_
  unfold serve
  rw [List.map_map]
  exact .sublist (List.filter_sublist.map _) (List.nodup_zipIdx_map_snd _)

/-- A Forward or Response packet that is sent at all had a new guid, which is
processed from then on. -/
theorem packetArm_round (haction : pkt.action = .forward ∨ pkt.action = .response)
    (hsends : (h.packetArm reading pkt).2.sends ≠ []) :
    pkt.guid ∉ h.processedRequests ∧
      ∀ h', (h.packetArm reading pkt).1 = .running h' → pkt.guid ∈ h'.processedRequests := by
  have hstep := packetArm_step h reading pkt
  generalize h.packetArm reading pkt = result at hstep hsends ⊢
  cases hstep with
  | abort => exact absurd rfl hsends
  | idle => exact absurd rfl hsends
  | round _ hfresh =>
    refine ⟨hfresh, fun h' hrun => ?_⟩
    cases hrun
    exact Finset.mem_insert_self _ _
  | request hrequest =>
    rw [hrequest] at haction
    rcases haction with haction | haction <;> cases haction

/-- The handler answers for a Response: its guid is new and its topic was requested. -/
structure TakesResponse (h : FibHandler Tx) (reading : Reading) (pkt : GDPPacket) : Prop where
  action : pkt.action = .response
  guid : pkt.guid.isSome
  fresh : pkt.guid ∉ h.processedRequests
  requested : ∃ requested, h.requestLatencyTable pkt.gdpname = some requested ∧
    requested ≤ reading.now

theorem packetArm_takes (htakes : h.TakesResponse reading pkt) (d : String) :
    (h.packetArm reading pkt).2.sends = h.serve d pkt := by
  obtain ⟨haction, hguid, hfresh, requested, hrequested, hclock⟩ := htakes
  obtain ⟨guid, hguid⟩ := Option.isSome_iff_exists.1 hguid
  have harm : h.packetArm reading pkt = h.responseArm reading pkt := by
    unfold packetArm
    rw [haction]
  rw [serve_response haction, harm, responseArm, hrequested, hguid]
  dsimp only
  rw [if_neg (Nat.not_lt.2 hclock), ← hguid, if_neg hfresh]

/-- Only a Response the handler answers for is sent. -/
theorem takesResponse_of_sends (haction : pkt.action = .response)
    (hsends : (h.packetArm reading pkt).2.sends ≠ []) : h.TakesResponse reading pkt := by
  have hfresh := (packetArm_round (.inr haction) hsends).1
  have harm : h.packetArm reading pkt = h.responseArm reading pkt := by
    unfold packetArm
    rw [haction]
  rw [harm, responseArm] at hsends
  split at hsends
  · exact absurd rfl hsends
  · exact absurd rfl hsends
  · rename_i requested guid hrequested hguid
    dsimp only at hsends
    split at hsends
    · exact absurd rfl hsends
    · rename_i hclock
      exact ⟨haction, Option.isSome_of_eq_some hguid, hfresh, requested, hrequested,
        Nat.le_of_not_lt hclock⟩

theorem packetArm_request_sends (haction : pkt.action = .request) {sent : Sent Tx}
    (hsent : sent ∈ (h.packetArm reading pkt).2.sends) :
    pkt.guid ∉ h.processedRequests ∧
      ∃ d, reading.defaultInterface = some d ∧ sent ∈ h.serve d pkt := by
  refine ⟨fun hdup => ?_, ?_⟩
  · rw [packetArm_dup hdup] at hsent
    cases hsent
  · rcases hd : reading.defaultInterface with _ | d
    · unfold packetArm at hsent
      rw [haction] at hsent
      dsimp only at hsent
      unfold requestArm at hsent
      rw [hd] at hsent
      split at hsent
      · split at hsent <;> cases hsent
      · cases hsent
    · have hserve := (packetArm_sublist h reading pkt).subset hsent
      rw [hd] at hserve
      exact ⟨d, rfl, hserve⟩

theorem packetArm_request_guid (haction : pkt.action = .request)
    (hrun : (h.packetArm reading pkt).1 = .running h')
    (hsends : (h.packetArm reading pkt).2.sends ≠ []) : pkt.guid.isSome := by
  have hstep := packetArm_step h reading pkt
  generalize h.packetArm reading pkt = result at hstep hrun hsends
  cases hstep with
  | abort => cases hrun
  | idle => exact absurd rfl hsends
  | round hround =>
    rw [haction] at hround
    rcases hround with hround | hround <;> cases hround
  | request _ _ d =>
    dsimp only at hrun hsends
    split at hrun
    · rename_i hfinished
      exact requestLoop_guid hfinished hsends
    · cases hrun

end Packet

end FibHandler

end RtFogros
