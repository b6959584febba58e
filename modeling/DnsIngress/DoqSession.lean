import DnsIngress.DoqConnection
import DnsIngress.MetricsAccount

/-! # A DoQ connection (`DoQServer::handle_connection` in `readers/doq.rs`)

The task of an accepted connection, the task that watches for a unidirectional stream, which no DoQ
client may open, and the tasks of the streams.  A step is what happens between two awaits; each task
may be dropped at every await, when the listener shuts down.

`connection_exact` covers all of them together: where the streams are forwarded to, how many run at
a time, what is recorded of them, and why the connection is closed. -/

namespace DnsIngress.DoQServer

open Transition Quic Metrics

/-- Where the task of the connection is. -/
inductive Phase
  /-- in the handshake -/
  | handshaking
  /-- in the spawn of the watcher -/
  | watching (target : Bytes)
  /-- in `connection.accept_bi()` -/
  | accepting (target : Bytes)
  /-- awaiting a permit of `stream_limit` for this stream -/
  | acquiring (target : Bytes) (stream : Transaction)
  /-- in the spawn of its task, which owns the permit -/
  | spawning (target : Bytes) (stream : Transaction)
  | returned (result : Except DnsProxyError Unit)
  /-- there was no handshake, or the future was dropped -/
  | abandoned

namespace Phase

def target? : Phase → Option Bytes
  | watching target | accepting target | acquiring target _ | spawning target _ => some target
  | handshaking | returned _ | abandoned => none

/-- The stream that has no task yet. -/
def streams : Phase → List Transaction
  | acquiring _ stream | spawning _ stream => [stream]
  | _ => []

def permits : Phase → ℕ
  | spawning _ _ => 1
  | _ => 0

/-- No stream has been accepted yet. -/
def early : Phase → Bool
  | handshaking | watching _ => true
  | _ => false

end Phase

inductive Watcher
  | absent
  /-- in `unidirectional.accept_uni()` -/
  | waiting
  /-- the client has opened a unidirectional stream -/
  | opened
  | ended

/-- Why the watcher has closed the connection. -/
def Watcher.closes : Watcher → List Bytes
  | opened => [utf8 "DoQ unidirectional stream"]
  | absent | waiting | ended => []

structure Connection where
  phase : Phase := .handshaking
  serverName : Option Bytes := none
  watcher : Watcher := .absent
  /-- the free permits of `stream_limit` -/
  free : ℕ
  running : List Transaction := []
  /-- the streams whose `forward_quic_stream` has returned, after so long -/
  finished : List (Transaction × ℕ) := []
  /-- the calls of `close` -/
  closes : List Bytes := []
  records : List Record := []
  /-- the task group is closed: it drops the futures it is given -/
  closed : Bool := false

inductive Action
  | connect (serverName : Option Bytes)
  /-- the handshake fails, or is slow -/
  | refuse
  | watch
  /-- a stream, with what it and its upstream are going to do -/
  | acceptBi (stream : Transaction)
  | acceptBiError
  | acquire
  | spawn
  | shutdown
  /-- the future is dropped, which a spawn may have survived -/
  | abort (sent : Bool)
  | finish (i duration : ℕ)
  /-- the task of a stream is dropped, or the token wins its `select!` -/
  | dropStream (i : ℕ)
  | acceptUni (opened : Bool)
  | dropWatcher
  | closeGroup

section
variable (rewriter : BaseSniRewriter) (text : ReadExactError → Bytes) (port : UInt16)

/-- Why the task of a stream closes the connection. -/
def streamCloses (t : Transaction) : List Bytes :=
  if closesConnection (forwardQuicStream text t).result then [utf8 "DoQ protocol error"] else []

/-- The stream as it is forwarded. -/
def forwarded (target : Bytes) (stream : Transaction) : Transaction :=
  { stream with serverName := target, upstreamPort := port }

def Connection.giveWatcher (s : Connection) (phase : Phase) : Connection :=
  { s with phase := phase, watcher := if s.closed then .ended else .waiting }

def Connection.giveStream (s : Connection) (phase : Phase) (stream : Transaction) : Connection :=
  if s.closed then { s with phase := phase, free := s.free + 1 }
  else { s with phase := phase, running := stream :: s.running }

/-- What follows `forward_quic_stream` in the task of a stream. -/
def Connection.finish (s : Connection) (i duration : ℕ) (stream : Transaction) : Connection :=
  { s with
    free := s.free + 1
    running := s.running.eraseIdx i
    finished := s.finished ++ [(stream, duration)]
    records := s.records ++ doqRecords text { stream with shutdown := false } duration
    closes := s.closes ++ streamCloses text stream }

def Connection.step (s : Connection) (a : Action) : Option Connection :=
  match a, s.phase with
  | .connect serverName, .handshaking =>
      match DoQServer.target rewriter serverName with
      | .error e => some { s with phase := .returned (.error e), serverName := serverName }
      | .ok target => some { s with phase := .watching target, serverName := serverName }
  | .refuse, .handshaking => some { s with phase := .abandoned }
  | .watch, .watching target => some (s.giveWatcher (.accepting target))
  | .acceptBi stream, .accepting target =>
      some { s with phase := .acquiring target (forwarded port target stream) }
  | .acceptBiError, .accepting _ => some { s with phase := .returned (.ok ()) }
  | .acquire, .acquiring target stream =>
      if 0 < s.free then some { s with phase := .spawning target stream, free := s.free - 1 }
      else none
  | .spawn, .spawning target stream => some (s.giveStream (.accepting target) stream)
  | .shutdown, .handshaking => some { s with phase := .abandoned }
  | .shutdown, .accepting _ | .shutdown, .acquiring _ _ =>
      some { s with phase := .returned (.ok ()) }
  | .abort _, .returned _ | .abort _, .abandoned => none
  | .abort true, .watching _ => some (s.giveWatcher .abandoned)
  | .abort true, .spawning _ stream => some (s.giveStream .abandoned stream)
  | .abort _, phase => some { s with phase := .abandoned, free := s.free + phase.permits }
  | .finish i duration, _ => (s.running[i]?).map (s.finish text i duration)
  | .dropStream i, _ =>
      (s.running[i]?).map fun _ => { s with free := s.free + 1, running := s.running.eraseIdx i }
  | .acceptUni opened, _ =>
      match s.watcher with
      | .waiting =>
          if opened then
            some { s with
              watcher := .opened, closes := s.closes ++ Watcher.opened.closes }
          else some { s with watcher := .ended }
      | _ => none
  | .dropWatcher, _ =>
      match s.watcher with
      | .waiting => some { s with watcher := .ended }
      | _ => none
  | .closeGroup, _ => some { s with closed := true }
  | _, _ => none

/-- The tasks of one connection. -/
def session (maxStreams : ℕ) : System Connection Action where
  init s := s = { free := maxStreams }
  step s a := s.step rewriter text port a

end

/-! ### What a step does -/

variable {rewriter : BaseSniRewriter} {text : ReadExactError → Bytes} {port : UInt16}
  {maxStreams : ℕ} {s s' : Connection} {a : Action}

inductive Move (rewriter : BaseSniRewriter) (text : ReadExactError → Bytes) (port : UInt16)
    (s : Connection) : Connection → Prop
  | refused (serverName : Option Bytes) (e : DnsProxyError) : s.phase = .handshaking →
      Move rewriter text port s { s with phase := .returned (.error e), serverName := serverName }
  | connected {serverName : Option Bytes} {target : Bytes} : s.phase = .handshaking →
      DoQServer.target rewriter serverName = .ok target →
      Move rewriter text port s { s with phase := .watching target, serverName := serverName }
  | watch {target : Bytes} (phase : Phase) : s.phase = .watching target →
      phase = .accepting target ∨ phase = .abandoned →
      Move rewriter text port s (s.giveWatcher phase)
  | acceptBi {target : Bytes} (stream : Transaction) : s.phase = .accepting target →
      Move rewriter text port s { s with phase := .acquiring target (forwarded port target stream) }
  | acquire {target : Bytes} {stream : Transaction} : s.phase = .acquiring target stream →
      0 < s.free →
      Move rewriter text port s { s with phase := .spawning target stream, free := s.free - 1 }
  | spawn {target : Bytes} {stream : Transaction} (phase : Phase) :
      s.phase = .spawning target stream → phase = .accepting target ∨ phase = .abandoned →
      Move rewriter text port s (s.giveStream phase stream)
  /-- the task of the connection ends -/
  | leave (phase : Phase) : phase = .abandoned ∨ phase = .returned (.ok ()) →
      Move rewriter text port s { s with phase := phase, free := s.free + s.phase.permits }
  | finish {i : ℕ} {stream : Transaction} (duration : ℕ) : s.running[i]? = some stream →
      Move rewriter text port s (s.finish text i duration stream)
  | dropStream {i : ℕ} {stream : Transaction} : s.running[i]? = some stream →
      Move rewriter text port s { s with free := s.free + 1, running := s.running.eraseIdx i }
  | opened : s.watcher = .waiting →
      Move rewriter text port s
        { s with watcher := .opened, closes := s.closes ++ Watcher.opened.closes }
  | unwatched : s.watcher = .waiting → Move rewriter text port s { s with watcher := .ended }
  | closeGroup : Move rewriter text port s { s with closed := true }

theorem Move.leaves {phase : Phase} (hp : s.phase.permits = 0)
    (h : phase = .abandoned ∨ phase = .returned (.ok ())) :
    Move rewriter text port s { s with phase := phase } := by
  have hm : Move rewriter text port s
      { s with phase := phase, free := s.free + s.phase.permits } := .leave phase h
  rwa [hp] at hm

/-- **Every step is one of these.** -/
theorem move_of_step (h : s.step rewriter text port a = some s') :
    Move rewriter text port s s' := by
  unfold Connection.step at h
  split at h
  · next hp =>
    split at h <;> cases h
    · exact .refused _ _ hp
    · next ht => exact .connected hp ht
  · next hp =>
    cases h
    exact .leaves (by rw [hp]; rfl) (.inl rfl)
  · next hp =>
    cases h
    exact .watch _ hp (.inl rfl)
  · next hp =>
    cases h
    exact .acceptBi _ hp
  · next hp =>
    cases h
    exact .leaves (by rw [hp]; rfl) (.inr rfl)
  · next hp =>
    split_ifs at h with hfree
    cases h
    exact .acquire hp hfree
  · next hp =>
    cases h
    exact .spawn _ hp (.inl rfl)
  · next hp =>
    cases h
    exact .leaves (by rw [hp]; rfl) (.inl rfl)
  · next hp =>
    cases h
    exact .leaves (by rw [hp]; rfl) (.inr rfl)
  · next hp =>
    cases h
    exact .leaves (by rw [hp]; rfl) (.inr rfl)
  · cases h
  · cases h
  · next hp =>
    cases h
    exact .watch _ hp (.inr rfl)
  · next hp =>
    cases h
    exact .spawn _ hp (.inr rfl)
  · cases h
    exact .leave _ (.inl rfl)
  · obtain ⟨stream, hi, rfl⟩ := Option.map_eq_some_iff.mp h
    exact .finish _ hi
  · obtain ⟨stream, hi, rfl⟩ := Option.map_eq_some_iff.mp h
    exact .dropStream hi
  · split at h
    · next hw =>
      split_ifs at h <;> cases h
      · exact .opened hw
      · exact .unwatched hw
    · cases h
  · split at h
    · next hw =>
      cases h
      exact .unwatched hw
    · cases h
  · cases h
    exact .closeGroup
  · cases h

/-! ### The invariant -/

/-- The streams of the connection. -/
def Connection.streams (s : Connection) : List Transaction :=
  s.phase.streams ++ (s.running ++ s.finished.map Prod.fst)

/-- What is recorded of the streams that have ended. -/
def Connection.streamRecords (text : ReadExactError → Bytes) (s : Connection) : List Record :=
  s.finished.flatMap fun (stream, duration) =>
    doqRecords text { stream with shutdown := false } duration

/-- The calls of `close` that there have been reasons for. -/
def Connection.reasons (text : ReadExactError → Bytes) (s : Connection) : List Bytes :=
  s.watcher.closes ++ s.finished.flatMap fun (stream, _) => streamCloses text stream

structure Inv (rewriter : BaseSniRewriter) (text : ReadExactError → Bytes) (port : UInt16)
    (maxStreams : ℕ) (s : Connection) : Prop where
  early : s.phase.early = true → s.running = [] ∧ s.finished = [] ∧ s.watcher = .absent
  routed : ∀ target, s.phase.target? = some target →
    DoQServer.target rewriter s.serverName = .ok target
  streams : ∀ stream ∈ s.streams,
    DoQServer.target rewriter s.serverName = .ok stream.serverName ∧ stream.upstreamPort = port
  permits : s.free + s.phase.permits + s.running.length = maxStreams
  records : s.records = s.streamRecords text
  closes : s.closes.Perm (s.reasons text)

theorem inv_init : Inv rewriter text port maxStreams { free := maxStreams } where
  early _ := ⟨rfl, rfl, rfl⟩
  routed _ h := by cases h
  streams _ h := by cases h
  permits := rfl
  records := rfl
  closes := .refl _

theorem Inv.goes (hi : Inv rewriter text port maxStreams s) {phase : Phase} {free : ℕ}
    (hearly : phase.early = false)
    (htarget : ∀ target, phase.target? = some target →
      DoQServer.target rewriter s.serverName = .ok target)
    (hstreams : ∀ stream ∈ phase.streams,
      DoQServer.target rewriter s.serverName = .ok stream.serverName ∧ stream.upstreamPort = port)
    (hfree : free + phase.permits = s.free + s.phase.permits) :
    Inv rewriter text port maxStreams { s with phase := phase, free := free } where
  early h := by
    rw [hearly] at h
    cases h
  routed := htarget
  streams stream h := by
    rcases List.mem_append.mp h with hnew | hold
    · exact hstreams stream hnew
    · exact hi.streams stream (List.mem_append_right _ hold)
  permits := by
    rw [hfree]
    exact hi.permits
  records := hi.records
  closes := hi.closes

theorem Inv.connect (hi : Inv rewriter text port maxStreams s) (hp : s.phase = .handshaking)
    {phase : Phase} {serverName : Option Bytes} (hpermits : phase.permits = 0)
    (hstreams : phase.streams = []) (htarget : ∀ target, phase.target? = some target →
      DoQServer.target rewriter serverName = .ok target) :
    Inv rewriter text port maxStreams { s with phase := phase, serverName := serverName } := by
  obtain ⟨hrunning, hfinished, hwatcher⟩ := hi.early (by rw [hp]; rfl)
  refine ⟨fun _ => ⟨hrunning, hfinished, hwatcher⟩, htarget, ?_, ?_, hi.records, hi.closes⟩
  · simp [Connection.streams, hstreams, hrunning, hfinished]
  · have := hi.permits
    rw [hp] at this
    rw [hpermits]
    exact this

theorem Inv.proceed (hi : Inv rewriter text port maxStreams s) {target : Bytes} {phase : Phase}
    (ht : s.phase.target? = some target) (hphase : phase = .accepting target ∨ phase = .abandoned) :
    Inv rewriter text port maxStreams
      { s with phase := phase, free := s.free + s.phase.permits } := by
  rcases hphase with rfl | rfl
  · refine hi.goes rfl ?_ nofun rfl
    rintro _ ⟨⟩
    exact hi.routed target ht
  · exact hi.goes rfl nofun nofun rfl

theorem Inv.giveWatcher (hi : Inv rewriter text port maxStreams s) {target : Bytes} {phase : Phase}
    (hp : s.phase = .watching target) (hphase : phase = .accepting target ∨ phase = .abandoned) :
    Inv rewriter text port maxStreams (s.giveWatcher phase) := by
  obtain ⟨-, -, hwatcher⟩ := hi.early (by rw [hp]; rfl)
  have hnext := hi.proceed (by rw [hp]; rfl) hphase
  rw [hp] at hnext
  have hnone : (if s.closed then Watcher.ended else .waiting).closes = s.watcher.closes := by
    rw [hwatcher]
    split_ifs <;> rfl
  refine ⟨fun h => ?_, hnext.routed, hnext.streams, hnext.permits, hnext.records, ?_⟩
  · rcases hphase with rfl | rfl <;> cases h
  · show s.closes.Perm ((if s.closed then Watcher.ended else .waiting).closes ++ _)
    rw [hnone]
    exact hi.closes

theorem Inv.giveStream (hi : Inv rewriter text port maxStreams s) {target : Bytes} {phase : Phase}
    {stream : Transaction} (hp : s.phase = .spawning target stream)
    (hphase : phase = .accepting target ∨ phase = .abandoned) :
    Inv rewriter text port maxStreams (s.giveStream phase stream) := by
  have hnext := hi.proceed (by rw [hp]; rfl) hphase
  rw [hp] at hnext
  unfold Connection.giveStream
  split_ifs with hclosed
  · exact hnext
  · refine ⟨fun h => ?_, hnext.routed, fun stream' h => ?_, ?_, hnext.records, hnext.closes⟩
    · rcases hphase with rfl | rfl <;> cases h
    · rcases List.mem_append.mp h with h | h
      · exact hnext.streams stream' (List.mem_append_left _ h)
      · rcases List.mem_cons.mp h with rfl | h
        · exact hi.streams stream' (List.mem_append_left _ (by rw [hp]; exact List.mem_cons_self))
        · exact hi.streams stream' (List.mem_append_right _ h)
    · have := hnext.permits
      show s.free + phase.permits + (s.running.length + 1) = maxStreams
      have hsum : s.free + 1 + phase.permits + s.running.length = maxStreams := this
      omega

theorem Inv.endStream (hi : Inv rewriter text port maxStreams s) {i : ℕ} {stream : Transaction}
    (hs : s.running[i]? = some stream) :
    Inv rewriter text port maxStreams
      { s with free := s.free + 1, running := s.running.eraseIdx i } := by
  obtain ⟨hlt, -⟩ := List.getElem?_eq_some_iff.mp hs
  refine ⟨fun h => ?_, hi.routed, fun stream' h => ?_, ?_, hi.records, hi.closes⟩
  · rw [(hi.early h).1] at hlt
    cases hlt
  · apply hi.streams
    rcases List.mem_append.mp h with h | h
    · exact List.mem_append_left _ h
    · rcases List.mem_append.mp h with h | h
      · exact List.mem_append_right _ (List.mem_append_left _ (List.mem_of_mem_eraseIdx h))
      · exact List.mem_append_right _ (List.mem_append_right _ h)
  · have hlen := List.length_eraseIdx_of_lt hlt
    have := hi.permits
    show s.free + 1 + s.phase.permits + (s.running.eraseIdx i).length = maxStreams
    omega

theorem Inv.finish (hi : Inv rewriter text port maxStreams s) {i duration : ℕ}
    {stream : Transaction} (hs : s.running[i]? = some stream) :
    Inv rewriter text port maxStreams (s.finish text i duration stream) := by
  have hend := hi.endStream hs
  refine ⟨fun h => ?_, hend.routed, fun stream' h => ?_, hend.permits, ?_, ?_⟩
  · have hrunning := (hi.early h).1
    rw [hrunning] at hs
    cases hs
  · simp only [Connection.streams, Connection.finish, List.map_append, List.map_cons, List.map_nil,
      ← List.append_assoc] at h
    rcases List.mem_append.mp h with h | h
    · exact hend.streams stream' (by simpa only [Connection.streams, List.append_assoc] using h)
    · rw [List.mem_singleton.mp h]
      exact hi.streams stream
        (List.mem_append_right _ (List.mem_append_left _ (List.mem_of_getElem? hs)))
  · simp only [Connection.finish, Connection.streamRecords, List.flatMap_append, List.flatMap_cons,
      List.flatMap_nil, List.append_nil, hi.records]
  · simp only [Connection.finish, Connection.reasons, List.flatMap_append, List.flatMap_cons,
      List.flatMap_nil, List.append_nil, ← List.append_assoc]
    exact hi.closes.append_right _

theorem Inv.step (hi : Inv rewriter text port maxStreams s) (hm : Move rewriter text port s s') :
    Inv rewriter text port maxStreams s' := by
  cases hm with
  | refused serverName e hp => exact hi.connect hp rfl rfl nofun
  | connected hp ht =>
      refine hi.connect hp rfl rfl ?_
      rintro _ ⟨⟩
      exact ht
  | watch phase hp hphase => exact hi.giveWatcher hp hphase
  | @acceptBi target stream hp =>
      have ht := hi.routed target (by rw [hp]; rfl)
      refine hi.goes rfl ?_ ?_ (by rw [hp]; rfl)
      · rintro _ ⟨⟩
        exact ht
      · intro stream' hs
        rw [List.mem_singleton.mp hs]
        exact ⟨ht, rfl⟩
  | @acquire target stream hp hfree =>
      have ht := hi.routed target (by rw [hp]; rfl)
      refine hi.goes rfl ?_ ?_ ?_
      · rintro _ ⟨⟩
        exact ht
      · intro stream' hs
        refine hi.streams stream' (List.mem_append_left _ ?_)
        rw [hp]
        exact hs
      · rw [hp]
        exact Nat.sub_add_cancel hfree
  | spawn phase hp hphase => exact hi.giveStream hp hphase
  | leave phase hphase =>
      obtain rfl | rfl := hphase
      · exact hi.goes rfl nofun nofun rfl
      · exact hi.goes rfl nofun nofun rfl
  | finish duration hs => exact hi.finish hs
  | dropStream hs => exact hi.endStream hs
  | opened hw =>
      refine ⟨fun h => absurd (hi.early h).2.2 (by rw [hw]; nofun), hi.routed, hi.streams,
        hi.permits, hi.records, ?_⟩
      have hcloses := hi.closes
      rw [Connection.reasons, hw] at hcloses
      exact (hcloses.append_right _).trans List.perm_append_comm
  | unwatched hw =>
      refine ⟨fun h => absurd (hi.early h).2.2 (by rw [hw]; nofun), hi.routed, hi.streams,
        hi.permits, hi.records, ?_⟩
      have hcloses := hi.closes
      rw [Connection.reasons, hw] at hcloses
      exact hcloses
  | closeGroup => exact ⟨hi.early, hi.routed, hi.streams, hi.permits, hi.records, hi.closes⟩

theorem Inv.of_reachable (h : Reachable (session rewriter text port maxStreams) s) :
    Inv rewriter text port maxStreams s :=
  h.invariant (fun s hs => by rw [hs]; exact inv_init) fun _ _ _ hi _ hs =>
    hi.step (move_of_step hs)

/-! ### The whole connection -/

/-- A stream that closes the connection is not one query, or it has been blamed for another. -/
theorem violates_or_blames {stream : Transaction} (h : streamCloses text stream ≠ []) :
    Violates stream.clientRecv.bytes ∨ Blames stream := by
  by_contra hno
  rw [not_or] at hno
  have hcloses : StreamTask.closes text { stream with shutdown := false } = true := by
    unfold streamCloses at h
    split_ifs at h with hc
    · simpa [StreamTask.closes] using hc
    · exact absurd rfl h
  exact hno.1 (fair_of_not_blames hno.2 hcloses)

structure ConnectionExact (rewriter : BaseSniRewriter) (text : ReadExactError → Bytes)
    (port : UInt16) (maxStreams : ℕ) (s : Connection) : Prop where
  /-- all streams of a connection are forwarded to one target -/
  routed : s.streams ≠ [] → ∃ sni r, s.serverName = some sni ∧ rewriter.rewrite sni = some r ∧
    ∀ stream ∈ s.streams, stream.serverName = r.targetHostname ∧ stream.upstreamPort = port
  limited : s.running.length ≤ maxStreams
  recorded : s.records = s.streamRecords text
  closed : s.closes.Perm (s.reasons text)
  blamed : s.closes ≠ [] → s.watcher = .opened ∨
    ∃ p ∈ s.finished, Violates p.1.clientRecv.bytes ∨ Blames p.1

/-- **A DoQ connection**: its streams go to the target that the client's server name is rewritten
to, and not too many of them run at a time; each that ends is recorded once; and the connection is
closed once for each reason. -/
theorem connection_exact (h : Reachable (session rewriter text port maxStreams) s) :
    ConnectionExact rewriter text port maxStreams s := by
  have hi := Inv.of_reachable h
  refine ⟨fun hne => ?_, ?_, hi.records, hi.closes, fun hne => ?_⟩
  · obtain ⟨stream, hmem⟩ := List.exists_mem_of_ne_nil _ hne
    obtain ⟨sni, r, hsni, hr, -⟩ := connectionTarget_ok (hi.streams stream hmem).1
    refine ⟨sni, r, hsni, hr, fun stream' hmem' => ?_⟩
    obtain ⟨ht, hport⟩ := hi.streams stream' hmem'
    obtain ⟨sni', r', hsni', hr', ht'⟩ := connectionTarget_ok ht
    obtain rfl : sni = sni' := Option.some.inj (hsni.symm.trans hsni')
    obtain rfl : r = r' := Option.some.inj (hr.symm.trans hr')
    exact ⟨ht', hport⟩
  · have := hi.permits
    omega
  · obtain ⟨reason, hmem⟩ := List.exists_mem_of_ne_nil _ hne
    rcases List.mem_append.mp (hi.closes.mem_iff.mp hmem) with hw | hf
    · cases hwatcher : s.watcher with
      | opened => exact .inl rfl
      | absent | waiting | ended =>
          rw [hwatcher] at hw
          cases hw
    · obtain ⟨p, hp, hreason⟩ := List.mem_flatMap.mp hf
      exact .inr ⟨p, hp, violates_or_blames (List.ne_nil_of_mem hreason)⟩

/-- A zone transfer, during which the client opens a unidirectional stream. -/
def watchedSession : List Action :=
  [.connect (some (utf8 "home.example.com")), .watch, .acceptBi cutTransfer, .acquire, .spawn,
    .acceptUni true, .finish 0 7, .acceptBiError]

theorem connection_exact_watched :
    ∃ s, run (session (createRewriter certifiedConfig.rewrite) quinnText 853 1) { free := 1 }
        watchedSession = some s ∧
      s.closes = utf8 "DoQ unidirectional stream" ::
        streamCloses quinnText (forwarded 853 (utf8 "home.example.cn") cutTransfer) ∧
      ConnectionExact (createRewriter certifiedConfig.rewrite) quinnText 853 1 s := by
  obtain ⟨s, hrun, hcloses⟩ : ∃ s,
      run (session (createRewriter certifiedConfig.rewrite) quinnText 853 1) { free := 1 }
        watchedSession = some s ∧
      s.closes = utf8 "DoQ unidirectional stream" ::
        streamCloses quinnText (forwarded 853 (utf8 "home.example.cn") cutTransfer) :=
    ⟨_, rfl, rfl⟩
  exact ⟨s, hrun, hcloses, connection_exact (.of_run watchedSession rfl hrun)⟩

end DnsIngress.DoQServer
