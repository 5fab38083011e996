import RtFogros.Lib.Run
import RtFogros.Scheduler.Model

/-!
# The time bound analyzer

`Time_Bound_Analyzer` of `time_bound_analyzer.py`.  It keeps a window of latencies for each
machine, and at every tick publishes a profile of each window as of its own last entry, not as of
the tick.  `SGC_Service.update` takes a profile with a latency as a sign of life.

`throughout_seesSilence_iff`: so a machine that no longer answers is reported as connected at every
tick, and its service does not time out, exactly in the runs with a tick at which some machine is
silent, but for windows whose median is `-1`.  The window, its cut and the profiles are the
source's; the statistics of `numpy` and the rounding of Python's floats are parameters.
-/

namespace RtFogros

/-! ## Times and numbers -/

/-- The stamp of a header. -/
structure Stamp where
  sec : Int
  nanosec : Nat
deriving DecidableEq

def Stamp.nanoseconds (time : Stamp) : ℚ := time.sec * 10 ^ 9 + time.nanosec

/-- Python's floats: an operation rounds the exact result. -/
structure FloatRounding where
  round : ℚ → ℚ
  round_zero : round 0 = 0

/-- `time.sec * 1e9 + time.nanosec`. -/
def FloatRounding.nsecs (fl : FloatRounding) (time : Stamp) : ℚ :=
  fl.round (fl.round (time.sec * 10 ^ 9) + time.nanosec)

/-- `sum(...) / len(...)`, `np.median` and `np.std`. -/
structure Statistics (L : Type) where
  mean : List L → L
  median : List L → L
  std : List L → L

/-! ## The callbacks -/

structure Latency (L : Type) where
  stamp : Stamp
  identity : String
  latency : L

/-- The measurements of a machine, which the dictionary has once there is one. -/
structure LatencyWindow (L : Type) where
  data : List (Stamp × L)
  nonempty : data ≠ []

namespace LatencyWindow

variable {L : Type}

/-- The stamp of `[-1]`. -/
def lastStamp (window : LatencyWindow L) : Stamp := (window.data.getLast window.nonempty).1

/-- `append`, and `del [:2000]` of a long window. -/
def append (data : List (Stamp × L)) (entry : Stamp × L) : LatencyWindow L :=
  if h : (data ++ [entry]).length > 5400 then
    ⟨(data ++ [entry]).drop 2000, by
      rw [Ne, List.drop_eq_nil_iff]
      omega⟩
  else ⟨data ++ [entry], List.append_ne_nil_of_right_ne_nil _ (List.cons_ne_nil _ _)⟩

end LatencyWindow

/-- The measurements back to the first that is too old. -/
def getLatestMeasurements {L : Type} (fl : FloatRounding) (data : List (Stamp × L)) (duration : ℚ)
    (currentTime : Stamp) : List L :=
  let durationNsecs := fl.round (duration * 10 ^ 9)
  let currentTimeNsecs := fl.nsecs currentTime
  ((data.reverse.takeWhile fun (time, _) =>
    fl.round (currentTimeNsecs - fl.nsecs time) ≤ durationNsecs).map Prod.snd).reverse

structure TimeBoundAnalyzer (L : Type) where
  latencyWindow : ℚ
  -- the one message that is filled in and published
  profile : Profile L
  latencySlidingWindow : PyDict String (LatencyWindow L) := .empty
  -- all messages it got
  received : List (Latency L) := []

inductive AnalyzerEvent (L : Type) where
  | latency (latencyMsg : Latency L)
  -- the timer fires at the time `now`
  | tick (now : Stamp)

namespace TimeBoundAnalyzer

variable {L : Type}

def latencyTopicCallback (s : TimeBoundAnalyzer L) (latencyMsg : Latency L) :
    TimeBoundAnalyzer L :=
  let data := match s.latencySlidingWindow.get? latencyMsg.identity with
    | some window => window.data
    | none => []
  { s with
    latencySlidingWindow := s.latencySlidingWindow.set latencyMsg.identity
      (.append data (latencyMsg.stamp, latencyMsg.latency))
    received := s.received ++ [latencyMsg] }

section Timer

variable [LinearOrder L] (fl : FloatRounding) (stats : Statistics L)

/-- The loop over the windows, with what it publishes. -/
def publishWindows (latencyWindow : ℚ) (profile : Profile L) :
    List (String × LatencyWindow L) → Profile L × List (Profile L)
  | [] => (profile, [])
  | (identity, window) :: windows =>
    let profile := { profile with identity }
    match getLatestMeasurements fl window.data latencyWindow window.lastStamp with
    | [] => publishWindows latencyWindow profile windows
    | latency :: latencies =>
      let profile :=
        { profile with
          minLatency := latencies.foldl min latency
          maxLatency := latencies.foldl max latency
          meanLatency := stats.mean (latency :: latencies)
          medianLatency := stats.median (latency :: latencies)
          stdLatency := stats.std (latency :: latencies) }
      let (last, published) := publishWindows latencyWindow profile windows
      (last, profile :: published)

variable [Neg L] [One L]

def statsTimerCallback (s : TimeBoundAnalyzer L) : TimeBoundAnalyzer L × List (Profile L) :=
  let (profile, published) :=
    publishWindows fl stats s.latencyWindow s.profile s.latencySlidingWindow.entries
  ({ s with
      profile :=
        { profile with
          minLatency := -1
          maxLatency := -1
          meanLatency := -1
          medianLatency := -1
          stdLatency := -1
          maxKmeansLatency := -1 } }, published)

def step (s : TimeBoundAnalyzer L) : AnalyzerEvent L → TimeBoundAnalyzer L
  | .latency latencyMsg => s.latencyTopicCallback latencyMsg
  | .tick _ => (s.statsTimerCallback fl stats).1

end Timer

/-! ## What a tick reports -/

/-- The machine has a measurement that is stamped within the window before `now`. -/
def Answering (s : TimeBoundAnalyzer L) (identity : String) (now : Stamp) : Prop :=
  ∃ latencyMsg ∈ s.received, latencyMsg.identity = identity ∧
    now.nanoseconds - latencyMsg.stamp.nanoseconds ≤ s.latencyWindow * 10 ^ 9

/-- The measurements of a machine up to its own last one. -/
def recent (fl : FloatRounding) (s : TimeBoundAnalyzer L) (identity : String) : List L :=
  match s.latencySlidingWindow.get? identity with
  | some window => getLatestMeasurements fl window.data s.latencyWindow window.lastStamp
  | none => []

variable [LinearOrder L] [Neg L] [One L] (fl : FloatRounding) (stats : Statistics L)

/-- A machine that does not answer is not reported as connected, so that its service keeps the
time from which its timeout counts, and times out. -/
structure SeesSilence (s : TimeBoundAnalyzer L) (now : Stamp) : Prop where
  reported : ∀ profile ∈ (s.statsTimerCallback fl stats).2, profile.connected = true →
    s.Answering profile.identity now
  kept : ∀ profile ∈ (s.statsTimerCallback fl stats).2, ¬ s.Answering profile.identity now →
    ∀ (service : SgcService L) (time : ℚ),
      (service.update time profile).lastConnectedTime = service.lastConnectedTime
  timesOut : ∀ profile ∈ (s.statsTimerCallback fl stats).2, ¬ s.Answering profile.identity now →
    ∀ (service : SgcService L) (time last later : ℚ), service.lastConnectedTime = some last →
      later - last > maxAllowedDisconnectedTime →
        (service.update time profile).checkTimeout later = true

/-- No machine is silent, or none is reported as connected at all. -/
def NoneSilent (s : TimeBoundAnalyzer L) (now : Stamp) : Prop :=
  ∀ latencyMsg ∈ s.received, s.Answering latencyMsg.identity now ∨
    stats.median (s.recent fl latencyMsg.identity) = -1 ∨ fl.round (s.latencyWindow * 10 ^ 9) < 0

omit [LinearOrder L] [Neg L] [One L] in
/-- A property of the ticks. -/
def AtTicks (p : TimeBoundAnalyzer L → Stamp → Prop) (s : TimeBoundAnalyzer L) :
    AnalyzerEvent L → Prop
  | .latency _ => True
  | .tick now => p s now

end TimeBoundAnalyzer

/-! ## Services -/

namespace SgcService

variable {L : Type} [LinearOrder L] [Neg L] [One L] {service : SgcService L}

theorem update_of_not_connected {time : ℚ} {profile : Profile L} (h : profile.connected = false) :
    (service.update time profile).lastConnectedTime = service.lastConnectedTime := by
  rw [update, h]
  rfl

omit [LinearOrder L] [Neg L] [One L] in
theorem checkTimeout_of_lastConnectedTime {last later : ℚ}
    (hlast : service.lastConnectedTime = some last)
    (hlater : later - last > maxAllowedDisconnectedTime) : service.checkTimeout later = true := by
  rw [checkTimeout, hlast]
  exact decide_eq_true hlater

end SgcService

/-! ## The last measurement -/

section Latest

variable {L : Type} {fl : FloatRounding}

/-- The last measurement is as old as itself. -/
theorem getLatestMeasurements_eq_nil_iff (window : LatencyWindow L) (duration : ℚ) :
    getLatestMeasurements fl window.data duration window.lastStamp = [] ↔
      fl.round (duration * 10 ^ 9) < 0 := by
  unfold getLatestMeasurements
  rw [List.reverse_eq_nil_iff, List.map_eq_nil_iff]
  cases hreverse : window.data.reverse with
  | nil => exact absurd (List.reverse_eq_nil_iff.1 hreverse) window.nonempty
  | cons last earlier =>
    have hlast : window.lastStamp = last.1 := by
      unfold LatencyWindow.lastStamp
      rw [List.getLast_eq_head_reverse]
      simp only [hreverse, List.head_cons]
    obtain ⟨time, latency⟩ := last
    rw [List.takeWhile_cons, hlast]
    simp [fl.round_zero]

end Latest

namespace TimeBoundAnalyzer

section Published

variable {L : Type} [LinearOrder L] {fl : FloatRounding} {stats : Statistics L}

/-- The profiles that the loop publishes: of every window whose recent part has an entry, with its
median. -/
theorem publishWindows_eq (latencyWindow : ℚ) (profile : Profile L)
    (windows : List (String × LatencyWindow L)) :
    (publishWindows fl stats latencyWindow profile windows).2.map
        (fun published => (published.identity, published.medianLatency)) =
      (windows.filter fun entry =>
        getLatestMeasurements fl entry.2.data latencyWindow entry.2.lastStamp ≠ []).map fun entry =>
          (entry.1, stats.median
            (getLatestMeasurements fl entry.2.data latencyWindow entry.2.lastStamp)) := by
  induction windows generalizing profile with
  | nil => rfl
  | cons entry windows ih =>
    obtain ⟨identity, window⟩ := entry
    rw [publishWindows]
    dsimp only
    split
    · next hlatest =>
      rw [ih, List.filter_cons_of_neg (by simp [hlatest])]
    · next latency latencies hlatest =>
      rw [List.map_cons, ih, List.filter_cons_of_pos (by simp [hlatest]), List.map_cons, hlatest]

end Published

variable {L : Type} [LinearOrder L] [Neg L] [One L] {fl : FloatRounding} {stats : Statistics L}
  {s : TimeBoundAnalyzer L}

variable (fl stats) in
/-- A tick publishes the median of every window, however old it is. -/
theorem published_eq (s : TimeBoundAnalyzer L) :
    (s.statsTimerCallback fl stats).2.map
        (fun published => (published.identity, published.medianLatency)) =
      if fl.round (s.latencyWindow * 10 ^ 9) < 0 then []
      else s.latencySlidingWindow.keys.map fun identity =>
        (identity, stats.median (s.recent fl identity)) := by
  refine (publishWindows_eq ..).trans ?_
  simp only [ne_eq, getLatestMeasurements_eq_nil_iff]
  split
  · next hnegative => simp [hnegative]
  · next hwindow =>
    rw [List.filter_eq_self.2 (by simp [hwindow]), PyDict.keys, List.map_map]
    refine List.map_congr_left fun entry hentry => ?_
    have hget := PyDict.get?_eq_some_iff.2 hentry
    simp only [Function.comp_apply, recent, hget]

/-- The dictionary has a window for every machine it got a message of. -/
def Known (s : TimeBoundAnalyzer L) : Prop :=
  ∀ identity, identity ∈ s.latencySlidingWindow.keys ↔
    ∃ latencyMsg ∈ s.received, latencyMsg.identity = identity

theorem known_step (hs : s.Known) (event : AnalyzerEvent L) : (s.step fl stats event).Known := by
  cases event with
  | latency latencyMsg =>
    intro identity
    unfold step latencyTopicCallback
    dsimp only
    rw [PyDict.mem_keys_set, hs identity]
    simp only [List.mem_append, List.mem_singleton, or_and_right, exists_or, exists_eq_left]
    rw [or_comm, eq_comm]
  | tick now => exact hs

theorem exists_published {identity : String} (hidentity : identity ∈ s.latencySlidingWindow.keys)
    (hwindow : ¬ fl.round (s.latencyWindow * 10 ^ 9) < 0) :
    ∃ profile ∈ (s.statsTimerCallback fl stats).2, profile.identity = identity ∧
      profile.medianLatency = stats.median (s.recent fl identity) := by
  have hmem := List.mem_map_of_mem
    (f := fun identity => (identity, stats.median (s.recent fl identity))) hidentity
  have hpublished := published_eq fl stats s
  rw [if_neg hwindow] at hpublished
  rw [← hpublished, List.mem_map] at hmem
  obtain ⟨profile, hprofile, hentry⟩ := hmem
  exact ⟨profile, hprofile, Prod.mk.inj hentry⟩

theorem of_published {profile : Profile L} (h : profile ∈ (s.statsTimerCallback fl stats).2) :
    ¬ fl.round (s.latencyWindow * 10 ^ 9) < 0 ∧
      profile.identity ∈ s.latencySlidingWindow.keys ∧
      profile.medianLatency = stats.median (s.recent fl profile.identity) := by
  have hmem := List.mem_map_of_mem
    (f := fun published => (published.identity, published.medianLatency)) h
  rw [published_eq] at hmem
  split at hmem
  · cases hmem
  · next hwindow =>
    obtain ⟨identity, hidentity, hentry⟩ := List.mem_map.1 hmem
    obtain ⟨rfl, hmedian⟩ := Prod.mk.inj hentry
    exact ⟨hwindow, hidentity, hmedian.symm⟩

/-- What a tick needs to see who is silent. -/
theorem seesSilence_iff (hs : s.Known) (now : Stamp) :
    s.SeesSilence fl stats now ↔ s.NoneSilent fl stats now := by
  constructor
  · intro h latencyMsg hmsg
    by_cases hwindow : fl.round (s.latencyWindow * 10 ^ 9) < 0
    · exact .inr (.inr hwindow)
    by_cases hmedian : stats.median (s.recent fl latencyMsg.identity) = -1
    · exact .inr (.inl hmedian)
    obtain ⟨profile, hprofile, hidentity, hlatency⟩ :=
      exists_published ((hs latencyMsg.identity).2 ⟨latencyMsg, hmsg, rfl⟩) hwindow
    have hconnected : profile.connected = true := by
      rw [Profile.connected, hlatency]
      exact decide_eq_true hmedian
    exact .inl (hidentity ▸ h.reported profile hprofile hconnected)
  · intro h
    have hreported : ∀ profile ∈ (s.statsTimerCallback fl stats).2, profile.connected = true →
        s.Answering profile.identity now := by
      intro profile hprofile hconnected
      obtain ⟨hwindow, hidentity, hlatency⟩ := of_published hprofile
      obtain ⟨latencyMsg, hmsg, hsame⟩ := (hs profile.identity).1 hidentity
      rw [Profile.connected, hlatency, decide_eq_true_iff, ← hsame] at hconnected
      exact hsame ▸ (h latencyMsg hmsg).resolve_right (not_or.2 ⟨hconnected, hwindow⟩)
    have hkept : ∀ profile ∈ (s.statsTimerCallback fl stats).2,
        ¬ s.Answering profile.identity now → ∀ (service : SgcService L) (time : ℚ),
          (service.update time profile).lastConnectedTime = service.lastConnectedTime := by
      intro profile hprofile hsilent service time
      refine SgcService.update_of_not_connected ?_
      rw [← Bool.not_eq_true]
      exact fun hconnected => hsilent (hreported profile hprofile hconnected)
    refine ⟨hreported, hkept, ?_⟩
    intro profile hprofile hsilent service time last later hlast hlater
    exact SgcService.checkTimeout_of_lastConnectedTime
      ((hkept profile hprofile hsilent service time).trans hlast) hlater

omit [LinearOrder L] [Neg L] [One L] in
theorem known_initial (latencyWindow : ℚ) (profile : Profile L) :
    Known { latencyWindow, profile } := by
  intro identity
  simp

/-- **Main result.**  Over a run of messages and ticks, a machine that does not answer is never
reported as connected, if and only if at every tick all machines answer, unless their medians are
`-1` or the window is negative. -/
theorem throughout_seesSilence_iff (fl : FloatRounding) (stats : Statistics L) (latencyWindow : ℚ)
    (profile : Profile L) (events : List (AnalyzerEvent L)) :
    Run.Throughout (step fl stats) (AtTicks (SeesSilence fl stats)) { latencyWindow, profile }
        events ↔
      Run.Throughout (step fl stats) (AtTicks (NoneSilent fl stats)) { latencyWindow, profile }
        events := by
  refine Run.throughout_congr Known (fun s event hs _ => known_step hs event) ?_ ?_
  · intro s event hs
    cases event with
    | latency => exact Iff.rfl
    | tick now => exact seesSilence_iff hs now
  · exact known_initial latencyWindow profile

end TimeBoundAnalyzer

/-- Of one latency. -/
def singleStatistics : Statistics Int :=
  { mean := fun latencies => latencies.headD 0
    median := fun latencies => latencies.headD 0
    std := fun _ => 0 }

def exactRounding : FloatRounding := ⟨id, rfl⟩

def startedAnalyzer : TimeBoundAnalyzer Int :=
  { latencyWindow := 3, profile := ⟨"machine_robot", -1, -1, -1, -1, -1, -1⟩ }

def answerAt100 : Latency Int := ⟨⟨100, 0⟩, "machine_cloud", 50⟩

/-- The machine answered last a minute before the tick.  It is reported as connected, and its
service takes that for a sign of life. -/
theorem silent_machine_reported :
    ¬ Run.Throughout (TimeBoundAnalyzer.step exactRounding singleStatistics)
        (TimeBoundAnalyzer.AtTicks
          (TimeBoundAnalyzer.SeesSilence exactRounding singleStatistics)) startedAnalyzer
        [.latency answerAt100, .tick ⟨160, 0⟩] ∧
      ∃ profile ∈ ((startedAnalyzer.latencyTopicCallback answerAt100).statsTimerCallback
          exactRounding singleStatistics).2,
        ∀ service : SgcService Int, (service.update 160 profile).checkTimeout 160 = false := by
  have hpublished :
      ((startedAnalyzer.latencyTopicCallback answerAt100).statsTimerCallback exactRounding
        singleStatistics).2.map (fun profile => (profile.identity, profile.connected)) =
          [("machine_cloud", true)] := by decide +kernel
  obtain ⟨profile, hprofile, hentry⟩ := List.mem_map.1
    (hpublished ▸ List.mem_singleton_self ("machine_cloud", true))
  obtain ⟨hidentity, hconnected⟩ := Prod.mk.inj hentry
  refine ⟨fun h => ?_, profile, hprofile, fun service => ?_⟩
  · obtain ⟨latencyMsg, hmsg, -, hage⟩ := h.2.1.reported profile hprofile hconnected
    obtain rfl := List.mem_singleton.1 hmsg
    exact absurd hage (by decide +kernel)
  · have htime : ¬ (160 : ℚ) - 160 > maxAllowedDisconnectedTime := by decide +kernel
    rw [SgcService.update, if_pos hconnected]
    exact decide_eq_false htime

end RtFogros
