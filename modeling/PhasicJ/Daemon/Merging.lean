import PhasicJ.Daemon.Replay

/-! Any number of replay clients, each with a recording of its own, and others at one daemon. -/

namespace PhasicJ.Daemon

open Sync Transitions

/-- A replay client with its requests and their descriptions. -/
structure ReplayClient where
  recording : List Row
  rteventsIter : List (Option String)
  sent : List (ℕ × String)
  phase : Phase

namespace ReplayClient

def start (rows : List Row) : ReplayClient := ⟨rows, selectDescriptions rows, [], .ready⟩

def requests (c : ReplayClient) : List ℕ := c.sent.map Prod.fst

end ReplayClient

structure Merge where
  clients : List ReplayClient
  daemon : State

namespace Merge

def fresh : Merge := ⟨[], .fresh⟩

def rowsOf (m : Merge) (c : ReplayClient) : List Row :=
  m.daemon.rows.filter fun row => row.request ∈ c.requests

end Merge

inductive MergeAction where
  | start | call (r : ℕ) | undecodable | finish | acked (r : ℕ) | fails | daemon (a : Action)

/-- The clients of the daemon that replay nothing send and get acks of their own requests. -/
inductive MergeStep : Merge → MergeAction → Merge → Prop
  | start {m : Merge} {rows : List Row} :
      MergeStep m .start { m with clients := m.clients ++ [.start rows] }
  | call {m : Merge} {before after : List ReplayClient} {c : ReplayClient} {r : ℕ}
      {description : String} {rest : List (Option String)} :
      m.clients = before ++ c :: after → c.phase = .ready →
      c.rteventsIter = some description :: rest → m.daemon.request r = none →
      MergeStep m (.call r)
        ⟨before ++ ⟨c.recording, rest, c.sent ++ [(r, description)], .awaiting⟩ :: after,
          m.daemon.put r ⟨description, .sent⟩⟩
  | undecodable {m : Merge} {before after : List ReplayClient} {c : ReplayClient}
      {rest : List (Option String)} :
      m.clients = before ++ c :: after → c.phase = .ready → c.rteventsIter = none :: rest →
      MergeStep m .undecodable
        { m with clients :=
            before ++ { c with rteventsIter := rest, phase := .stopped } :: after }
  | finish {m : Merge} {before after : List ReplayClient} {c : ReplayClient} :
      m.clients = before ++ c :: after → c.phase = .ready → c.rteventsIter = [] →
      MergeStep m .finish { m with clients := before ++ { c with phase := .finished } :: after }
  | acked {m : Merge} {before after : List ReplayClient} {c : ReplayClient} {r : ℕ}
      {earlier : List (ℕ × String)} {description : String} {daemon' : State} :
      m.clients = before ++ c :: after → c.phase = .awaiting →
      c.sent = earlier ++ [(r, description)] → Step m.daemon (.deliver r) daemon' →
      MergeStep m (.acked r) ⟨before ++ { c with phase := .ready } :: after, daemon'⟩
  | fails {m : Merge} {before after : List ReplayClient} {c : ReplayClient} :
      m.clients = before ++ c :: after → c.phase = .awaiting →
      MergeStep m .fails { m with clients := before ++ { c with phase := .stopped } :: after }
  | daemon {m : Merge} {a : Action} {daemon' : State} :
      a.ofServer = true ∨ (∀ c ∈ m.clients, a.request ∉ c.requests) → Step m.daemon a daemon' →
      MergeStep m (.daemon a) { m with daemon := daemon' }

def State.recorded (s : State) (r : ℕ) : Bool := (s.stage r).any Stage.isRecorded

/-- A client has sent a beginning of its recording, and its rows are those of its requests whose
`INSERT` was executed, in the order in which it has sent them. -/
structure ReplayClient.Ok (s : State) (c : ReplayClient) : Prop where
  source : ∃ rest, c.rteventsIter = rest.map some ∧
    c.recording.map Row.description = c.sent.map Prod.snd ++ rest
  request : ∀ p ∈ c.sent, (s.request p.1).map Request.description = some p.2
  once : c.requests.Nodup
  earlier : ∀ p ∈ c.sent.dropLast, s.stage p.1 = some .delivered
  answered : c.phase = .ready ∨ c.phase = .finished → ∀ p ∈ c.sent, s.stage p.1 = some .delivered
  finished : c.phase = .finished → c.rteventsIter = []
  rows : (s.rows.filter fun row => row.request ∈ c.requests).map
      (fun row => (row.request, row.description)) = c.sent.filter fun p => s.recorded p.1

section Clients

variable {s u : State} {a : Action} {c : ReplayClient} {r : ℕ} {p : ℕ × String}
  {description : String} {rest : List (Option String)} {phase : Phase}

lemma Step.recorded_eq (hs : Step s a u) (h : r ≠ a.request) : u.recorded r = s.recorded r := by
  rw [State.recorded, State.recorded, hs.stage_frame h]

lemma Step.recorded_same (hs : Step s a u) (hi : a ≠ .insert a.request) :
    u.recorded r = s.recorded r := by
  rw [Bool.eq_iff_iff, State.recorded, State.recorded, Option.any_eq_true, Option.any_eq_true]
  exact hs.recorded_iff hi

lemma recorded_of_delivered (h : s.stage r = some .delivered) : s.recorded r = true := by
  rw [State.recorded, h]
  rfl

lemma ReplayClient.mem_requests (hp : p ∈ c.sent) : p.1 ∈ c.requests :=
  List.mem_map_of_mem hp

lemma ReplayClient.Ok.frame (h : c.Ok s) (hs : Step s a u) (ha : a.request ∉ c.requests) :
    c.Ok u := by
  have hne : ∀ p ∈ c.sent, p.1 ≠ a.request := by
    rintro p hp he
    exact ha (he ▸ mem_requests hp)
  refine ⟨h.source, fun p hp => ?_, h.once, fun p hp => ?_, fun hc p hp => ?_, h.finished, ?_⟩
  · rw [hs.frame (hne p hp)]
    exact h.request p hp
  · rw [hs.stage_frame (hne p (List.mem_of_mem_dropLast hp))]
    exact h.earlier p hp
  · rw [hs.stage_frame (hne p hp)]
    exact h.answered hc p hp
  · have hsent : (c.sent.filter fun p => u.recorded p.1) = c.sent.filter fun p => s.recorded p.1 :=
      List.filter_congr fun p hp => hs.recorded_eq (hne p hp)
    rw [hsent, ← h.rows]
    by_cases hi : a = .insert a.request
    · rw [hi] at hs
      cases hs with
      | insert hq hstage =>
        rw [State.setConnection_rows, Mutex.write_data, List.filter_append,
          List.filter_cons_of_neg (by simpa using ha), List.filter_nil, List.append_nil]
    · rw [hs.rows_eq hi]

/-- A step of a request of the client is one of its last request. -/
lemma ReplayClient.Ok.last (h : c.Ok s) (hs : Step s a u) (ha : a.request ∈ c.requests)
    (hd : a.source ≠ some .delivered) : a.source ≠ none ∧
      ∃ earlier description, c.sent = earlier ++ [(a.request, description)] ∧
        ∀ p ∈ earlier, p.1 ≠ a.request ∧ s.stage p.1 = some .delivered := by
  obtain ⟨p, hp, hr⟩ := List.mem_map.mp ha
  have hlive : s.stage p.1 ≠ some .delivered := by
    rw [hr, hs.source]
    exact hd
  refine ⟨fun hn => ?_, c.sent.dropLast, p.2, ?_, fun q hq => ⟨fun he => ?_, h.earlier q hq⟩⟩
  · have hreq := h.request p hp
    rw [hr] at hreq
    have hst := hs.source
    rw [hn, State.stage, Option.map_eq_none_iff] at hst
    simp [hst] at hreq
  · have hne : c.sent ≠ [] := List.ne_nil_of_mem hp
    have hlast : p = c.sent.getLast hne := by
      have hsplit := List.dropLast_append_getLast hne
      rw [← hsplit, List.mem_append, List.mem_singleton] at hp
      exact hp.resolve_left fun hin => hlive (h.earlier p hin)
    rw [← hr, Prod.mk.eta, hlast, List.dropLast_append_getLast]
  · have hq' := h.earlier q hq
    rw [he, ← hr] at hq'
    exact hlive hq'

lemma ReplayClient.Ok.step (h : c.Ok s) (hs : Step s a u) (hd : a.source ≠ some .delivered) :
    c.Ok u := by
  by_cases ha : a.request ∈ c.requests
  swap
  · exact h.frame hs ha
  obtain ⟨hsrc, earlier, description, hsent, hne⟩ := h.last hs ha hd
  have hmem : (a.request, description) ∈ c.sent := by
    rw [hsent]
    exact List.mem_append_right _ (List.mem_singleton_self _)
  refine ⟨h.source, fun p hp => ?_, h.once, fun p hp => ?_, fun hc => ?_, h.finished, ?_⟩
  · by_cases hr : p.1 = a.request
    · rw [hr, hs.description hsrc, ← hr]
      exact h.request p hp
    · rw [hs.frame hr]
      exact h.request p hp
  · rw [hsent, List.dropLast_concat] at hp
    rw [hs.stage_frame (hne p hp).1]
    exact (hne p hp).2
  · have := h.answered hc _ hmem
    rw [hs.source] at this
    exact absurd this hd
  · by_cases hi : a = .insert a.request
    · have hearlier : (earlier.filter fun p => u.recorded p.1) =
          earlier.filter fun p => s.recorded p.1 :=
        List.filter_congr fun p hp => hs.recorded_eq (hne p hp).1
      have hold : s.recorded a.request = false := by
        rw [State.recorded, hs.source, hi]
        rfl
      have hnew : u.recorded a.request = true := by
        rw [State.recorded, hs.target, hi]
        rfl
      have hrows := h.rows
      have hreq := h.request _ hmem
      rw [hsent, List.filter_append, List.filter_cons_of_neg (by simp [hold]), List.filter_nil,
        List.append_nil] at hrows
      rw [hsent, List.filter_append, List.filter_cons_of_pos (by simpa using hnew), List.filter_nil,
        hearlier, ← hrows]
      rw [hi] at hs
      cases hs with
      | @insert _ q hq hstage =>
        rw [hq, Option.map_some] at hreq
        obtain rfl := Option.some.inj hreq
        rw [State.setConnection_rows, Mutex.write_data, List.filter_append,
          List.filter_cons_of_pos (by simpa using ha), List.filter_nil, List.map_append,
          List.map_singleton]
    · rw [hs.rows_eq hi, h.rows]
      exact List.filter_congr fun p _ => (hs.recorded_same hi).symm

lemma ReplayClient.Ok.call (h : c.Ok s) (hp : c.phase = .ready)
    (hi : c.rteventsIter = some description :: rest) (hr : r ∉ c.requests)
    (hq : s.request r = some ⟨description, .sent⟩) (hrow : ∀ row ∈ s.rows, row.request ≠ r) :
    (⟨c.recording, rest, c.sent ++ [(r, description)], .awaiting⟩ : ReplayClient).Ok s := by
  have hrequests : (⟨c.recording, rest, c.sent ++ [(r, description)], .awaiting⟩ :
      ReplayClient).requests = c.requests ++ [r] := List.map_append
  refine ⟨?_, fun p hp => ?_, ?_, fun p hin => ?_, ?_, nofun, ?_⟩
  · obtain ⟨later, hlater, hsource⟩ := h.source
    obtain ⟨first, later, rfl, hfirst, rfl⟩ := List.map_eq_cons_iff.mp (hlater.symm.trans hi)
    obtain rfl := Option.some.inj hfirst
    exact ⟨later, rfl, by simpa using hsource⟩
  · rcases List.mem_append.mp hp with hp | hp
    · exact h.request p hp
    · obtain rfl := List.mem_singleton.mp hp
      rw [hq]
      rfl
  · rw [hrequests]
    exact h.once.append (List.nodup_singleton r) (by simpa using hr)
  · rw [List.dropLast_concat] at hin
    exact h.answered (.inl hp) p hin
  · rintro (hc | hc) <;> cases hc
  · have hmine : (s.rows.filter fun row => row.request ∈ c.requests ++ [r]) =
        s.rows.filter fun row => row.request ∈ c.requests := by
      refine List.filter_congr fun row hin => ?_
      simp [hrow row hin]
    have hrec : s.recorded r = false := by
      rw [State.recorded, State.stage, hq]
      rfl
    rw [hrequests, hmine, h.rows, List.filter_append, List.filter_cons_of_neg (by simp [hrec]),
      List.filter_nil, List.append_nil]

lemma ReplayClient.Ok.acked (h : c.Ok s) {earlier : List (ℕ × String)}
    (hsent : c.sent = earlier ++ [(r, description)]) (hr : s.stage r = some .delivered) :
    ({ c with phase := .ready } : ReplayClient).Ok s := by
  refine ⟨h.source, h.request, h.once, h.earlier, fun _ p hp => ?_, nofun, h.rows⟩
  have hearlier := h.earlier
  rw [hsent, List.dropLast_concat] at hearlier
  change p ∈ c.sent at hp
  rw [hsent] at hp
  rcases List.mem_append.mp hp with hp | hp
  · exact hearlier p hp
  · rwa [List.mem_singleton.mp hp]

lemma ReplayClient.Ok.finish (h : c.Ok s) (hp : c.phase = .ready) (hi : c.rteventsIter = []) :
    ({ c with phase := .finished } : ReplayClient).Ok s :=
  ⟨h.source, h.request, h.once, h.earlier, fun _ => h.answered (.inl hp), fun _ => hi, h.rows⟩

lemma ReplayClient.Ok.stop (h : c.Ok s) :
    ({ c with phase := .stopped } : ReplayClient).Ok s := by
  refine ⟨h.source, h.request, h.once, h.earlier, ?_, nofun, h.rows⟩
  rintro (hc | hc) <;> cases hc

lemma ReplayClient.start_ok (s : State) (rows : List Row) : (ReplayClient.start rows).Ok s := by
  refine ⟨⟨rows.map Row.description, ?_, rfl⟩, nofun, List.nodup_nil, nofun, nofun, nofun, ?_⟩
  · simp [start, selectDescriptions]
  · simp [requests, start]

end Clients

structure Merge.Ok (m : Merge) : Prop where
  clients : ∀ c ∈ m.clients, c.Ok m.daemon
  once : (m.clients.flatMap ReplayClient.requests).Nodup
  daemon : ∃ t, Run Step .fresh t m.daemon

section Merges

variable {m m' : Merge} {e : MergeAction} {t : List MergeAction} {before after : List ReplayClient}
  {c c' : ReplayClient} {s : State} {r : ℕ}

lemma Merge.Ok.sent (h : m.Ok) (hc : c ∈ m.clients) (hr : r ∈ c.requests) :
    m.daemon.request r ≠ none := by
  obtain ⟨p, hp, rfl⟩ := List.mem_map.mp hr
  intro hn
  have := (h.clients c hc).request p hp
  simp [hn] at this

lemma Merge.Ok.apart (h : m.Ok) (hm : m.clients = before ++ c :: after) (hr : r ∈ c.requests)
    (hc : c' ∈ before ++ after) : r ∉ c'.requests := by
  have honce := h.once
  rw [hm, (List.perm_middle.flatMap_right _).nodup_iff, List.flatMap_cons] at honce
  intro hr'
  exact (List.nodup_append.mp honce).2.2 r hr r (List.mem_flatMap.mpr ⟨c', hc, hr'⟩) rfl

lemma Merge.Ok.replace (h : m.Ok) (hm : m.clients = before ++ c :: after)
    (hrequests : c'.requests = c.requests) (hc : c'.Ok s)
    (hother : ∀ d ∈ before ++ after, d.Ok s) (hs : ∃ t, Run Step .fresh t s) :
    Merge.Ok ⟨before ++ c' :: after, s⟩ := by
  refine ⟨fun d hd => ?_, ?_, hs⟩
  · rcases List.mem_cons.mp (List.perm_middle.mem_iff.mp hd) with rfl | hd
    · exact hc
    · exact hother d hd
  · have honce := h.once
    rw [hm] at honce
    simpa [hrequests] using honce

lemma Merge.Ok.other (h : m.Ok) (hm : m.clients = before ++ c :: after)
    (hc : c' ∈ before ++ after) : c'.Ok m.daemon := by
  refine h.clients c' ?_
  rw [hm]
  exact List.perm_middle.mem_iff.mpr (List.mem_cons_of_mem c hc)

lemma Merge.Ok.mem (hm : m.clients = before ++ c :: after) : c ∈ m.clients := by
  rw [hm]
  exact List.mem_append_right _ List.mem_cons_self

lemma Merge.Ok.step (h : m.Ok) (hs : MergeStep m e m') : m'.Ok := by
  cases hs with
  | @start rows =>
    refine ⟨fun c hc => ?_, ?_, h.daemon⟩
    · rcases List.mem_append.mp hc with hc | hc
      · exact h.clients c hc
      · rw [List.mem_singleton.mp hc]
        exact ReplayClient.start_ok _ rows
    · rw [List.flatMap_append]
      simpa [ReplayClient.start, ReplayClient.requests] using h.once
  | @call before after c r description rest hm hp hi hq =>
    obtain ⟨t, ht⟩ := h.daemon
    have hsend : Step m.daemon (.send 0 r) (m.daemon.put r ⟨description, .sent⟩) := .send hq
    have hnew : ∀ d ∈ m.clients, r ∉ d.requests := fun d hd hr => h.sent hd hr hq
    have hframe : ∀ d ∈ m.clients, d.Ok (m.daemon.put r ⟨description, .sent⟩) := fun d hd =>
      (h.clients d hd).frame hsend (hnew d hd)
    have hrow : ∀ row ∈ m.daemon.rows, row.request ≠ r := by
      rintro row hin rfl
      obtain ⟨q, hq', -⟩ := (tableOk_run ht).owned row hin
      simp [hq] at hq'
    refine ⟨fun d hd => ?_, ?_, t ++ [.send 0 r], ht.snoc hsend⟩
    · rcases List.mem_cons.mp (List.perm_middle.mem_iff.mp hd) with rfl | hd
      · exact (hframe c (Merge.Ok.mem hm)).call hp hi (hnew c (Merge.Ok.mem hm)) (by simp) hrow
      · refine hframe d ?_
        rw [hm]
        exact List.perm_middle.mem_iff.mpr (List.mem_cons_of_mem c hd)
    · have honce := h.once
      have hout : r ∉ m.clients.flatMap ReplayClient.requests := by
        intro hr
        obtain ⟨d, hd, hr⟩ := List.mem_flatMap.mp hr
        exact hnew d hd hr
      rw [hm, (List.perm_middle.flatMap_right _).nodup_iff, List.flatMap_cons] at honce
      rw [hm, (List.perm_middle.flatMap_right _).mem_iff, List.flatMap_cons] at hout
      rw [(List.perm_middle.flatMap_right _).nodup_iff, List.flatMap_cons]
      have hrequests : (⟨c.recording, rest, c.sent ++ [(r, description)], .awaiting⟩ :
          ReplayClient).requests = c.requests ++ [r] := List.map_append
      rw [hrequests, List.append_assoc, List.singleton_append, List.perm_middle.nodup_iff]
      exact List.nodup_cons.mpr ⟨hout, honce⟩
  | undecodable hm hp hi =>
    obtain ⟨rest, hrest, -⟩ := (h.clients _ (Merge.Ok.mem hm)).source
    obtain ⟨_, _, -, hn, -⟩ := List.map_eq_cons_iff.mp (hrest.symm.trans hi)
    cases hn
  | finish hm hp hi =>
    exact h.replace hm rfl ((h.clients _ (Merge.Ok.mem hm)).finish hp hi) (fun _ => h.other hm)
      h.daemon
  | @acked before after c r earlier description s hm hp hsent hs =>
    obtain ⟨t, ht⟩ := h.daemon
    have hr : r ∈ c.requests := by
      rw [ReplayClient.requests, hsent]
      simp
    refine h.replace hm rfl (((h.clients c (Merge.Ok.mem hm)).step hs nofun).acked hsent hs.target)
      (fun d hd => (h.other hm hd).frame hs (h.apart hm hr hd)) ⟨_, ht.snoc hs⟩
  | fails hm hp =>
    exact h.replace hm rfl (h.clients _ (Merge.Ok.mem hm)).stop (fun _ => h.other hm) h.daemon
  | @daemon a s ha hs =>
    obtain ⟨t, ht⟩ := h.daemon
    refine ⟨fun c hc => ?_, h.once, _, ht.snoc hs⟩
    rcases ha with ha | ha
    · exact (h.clients c hc).step hs (Action.ofServer_source ha).2.1
    · exact (h.clients c hc).frame hs (ha c hc)

lemma merge_ok (h : Run MergeStep .fresh t m) : m.Ok :=
  h.invariant Merge.Ok (fun _ _ _ hu hs => hu.step hs) ⟨nofun, List.nodup_nil, [], .nil _⟩

lemma ReplayClient.Ok.recorded_prefix (h : c.Ok s) :
    (c.sent.filter fun p => s.recorded p.1) <+: c.sent := by
  rcases List.eq_nil_or_concat c.sent with hnil | ⟨earlier, p, hsent⟩
  · rw [hnil]
    exact List.prefix_refl _
  · have hearlier := h.earlier
    rw [List.concat_eq_append] at hsent
    rw [hsent, List.dropLast_concat] at hearlier
    rw [hsent, List.filter_append, List.filter_eq_self.mpr fun p hp =>
      recorded_of_delivered (hearlier p hp)]
    rw [List.prefix_append_right_inj]
    cases hp : s.recorded p.1 <;> simp [hp]

lemma ReplayClient.Ok.all_recorded (h : c.Ok s) (hc : c.phase = .finished) :
    (c.sent.filter fun p => s.recorded p.1) = c.sent :=
  List.filter_eq_self.mpr fun p hp => recorded_of_delivered (h.answered (.inr hc) p hp)

lemma ReplayClient.Ok.all_sent (h : c.Ok s) (hc : c.phase = .finished) :
    c.sent.map Prod.snd = c.recording.map Row.description := by
  obtain ⟨rest, hrest, hsource⟩ := h.source
  obtain rfl := List.map_eq_nil_iff.mp (hrest.symm.trans (h.finished hc))
  rw [hsource, List.append_nil]

lemma Merge.Ok.rows_prefix (h : m.Ok) (hc : c ∈ m.clients) :
    (m.rowsOf c).map Row.description <+: c.recording.map Row.description := by
  have hok := h.clients c hc
  obtain ⟨rest, -, hsource⟩ := hok.source
  have hrows := congrArg (List.map Prod.snd) hok.rows
  rw [List.map_map] at hrows
  have hdescriptions : (m.rowsOf c).map Row.description =
      (c.sent.filter fun p => m.daemon.recorded p.1).map Prod.snd := hrows
  rw [hdescriptions, hsource]
  exact (hok.recorded_prefix.map Prod.snd).trans (List.prefix_append _ rest)

lemma Merge.Ok.rows_finished (h : m.Ok) (hc : c ∈ m.clients) (hf : c.phase = .finished) :
    (m.rowsOf c).map (fun row => (row.request, row.description)) = c.sent :=
  (h.clients c hc).rows.trans ((h.clients c hc).all_recorded hf)

lemma requests_of_clients (h : Run MergeStep .fresh t m)
    (hserver : ∀ a, .daemon a ∈ t → a.ofServer = true) {q : Request}
    (hq : m.daemon.request r = some q) : ∃ c ∈ m.clients, r ∈ c.requests := by
  induction h generalizing q with
  | nil => cases hq
  | @snoc v m' t e _ hs ih =>
    have ih : ∀ q, v.daemon.request r = some q → ∃ c ∈ v.clients, r ∈ c.requests := fun q =>
      ih fun a ha => hserver a (List.mem_append_left _ ha)
    have hkeep : ∀ {before after : List ReplayClient} {c c' : ReplayClient} {q : Request},
        v.clients = before ++ c :: after → (∀ r ∈ c.requests, r ∈ c'.requests) →
        v.daemon.request r = some q → ∃ d ∈ before ++ c' :: after, r ∈ d.requests := by
      intro before after c c' q hm hsub hq
      obtain ⟨d, hd, hr⟩ := ih _ hq
      rw [hm] at hd
      rcases List.mem_cons.mp (List.perm_middle.mem_iff.mp hd) with rfl | hd
      · exact ⟨c', List.mem_append_right _ List.mem_cons_self, hsub r hr⟩
      · exact ⟨d, List.perm_middle.mem_iff.mpr (List.mem_cons_of_mem c' hd), hr⟩
    cases hs with
    | start =>
      obtain ⟨d, hd, hr⟩ := ih _ hq
      exact ⟨d, List.mem_append_left _ hd, hr⟩
    | @call before after c r' description rest hm =>
      by_cases hr : r = r'
      · exact ⟨_, List.mem_append_right _ List.mem_cons_self, by simp [ReplayClient.requests, hr]⟩
      · refine hkeep hm (fun x hx => ?_) ((by simpa [hr] using hq) : v.daemon.request r = some q)
        rw [ReplayClient.requests, List.map_append]
        exact List.mem_append_left _ hx
    | undecodable hm => exact hkeep hm (fun _ hx => hx) hq
    | finish hm => exact hkeep hm (fun _ hx => hx) hq
    | fails hm => exact hkeep hm (fun _ hx => hx) hq
    | @acked before after c r' earlier description s hm hp hsent hs =>
      by_cases hr : r = r'
      · refine ⟨_, List.mem_append_right _ List.mem_cons_self, ?_⟩
        simp [ReplayClient.requests, hsent, hr]
      · exact hkeep hm (fun _ hx => hx) ((hs.frame hr).symm.trans hq)
    | @daemon a s ha hs =>
      have hsrc := (Action.ofServer_source (hserver a (List.mem_append_right _ (by simp)))).1
      by_cases hr : r = a.request
      · obtain ⟨stage, hst⟩ := Option.ne_none_iff_exists'.mp (hs.source ▸ hsrc)
        obtain ⟨q', hq', -⟩ := Option.map_eq_some_iff.mp hst
        exact ih _ (hr ▸ hq')
      · exact ih _ ((hs.frame hr).symm.trans hq)

/-- However the replays of any recordings are interleaved with each other and with other clients,
each client's rows are a beginning of its recording in its order, and all of it when the client has
finished. Where only recordings are replayed, all to their end, nothing else is in the table. -/
theorem recordings_merged (h : Run MergeStep .fresh t m) :
    m.daemon.rows.Pairwise (fun row row' => row.id < row'.id) ∧
    (∀ c ∈ m.clients, (m.rowsOf c).map Row.description <+: c.recording.map Row.description ∧
      (c.phase = .finished →
        (m.rowsOf c).map Row.description = c.recording.map Row.description)) ∧
    ((∀ a, .daemon a ∈ t → a.ofServer = true) → (∀ c ∈ m.clients, c.phase = .finished) →
      (m.daemon.rows.map Row.description).Perm
        (m.clients.flatMap fun c => c.recording.map Row.description)) := by
  have hok := merge_ok h
  obtain ⟨t', ht'⟩ := hok.daemon
  have htable := tableOk_run ht'
  refine ⟨htable.ids, fun c hc => ⟨hok.rows_prefix hc, fun hf => ?_⟩, fun hserver hf => ?_⟩
  · rw [← (hok.clients c hc).all_sent hf, ← hok.rows_finished hc hf, List.map_map]
    rfl
  -- the rows and the requests are the same pairs, and neither has one twice
  have hpairs : (m.daemon.rows.map fun row => (row.request, row.description)).Perm
      (m.clients.flatMap ReplayClient.sent) := by
    refine (List.perm_ext_iff_of_nodup ?_ ?_).mpr fun p => ⟨fun hp => ?_, fun hp => ?_⟩
    · refine List.Nodup.of_map Prod.fst ?_
      rw [List.map_map]
      exact htable.once
    · refine List.Nodup.of_map Prod.fst ?_
      rw [List.map_flatMap]
      exact hok.once
    · obtain ⟨row, hrow, rfl⟩ := List.mem_map.mp hp
      obtain ⟨q, hq, -⟩ := htable.owned row hrow
      obtain ⟨c, hc, hr⟩ := requests_of_clients h hserver hq
      refine List.mem_flatMap.mpr ⟨c, hc, ?_⟩
      rw [← hok.rows_finished hc (hf c hc)]
      exact List.mem_map_of_mem (List.mem_filter.mpr ⟨hrow, by simpa using hr⟩)
    · obtain ⟨c, hc, hp⟩ := List.mem_flatMap.mp hp
      rw [← hok.rows_finished hc (hf c hc)] at hp
      obtain ⟨row, hrow, rfl⟩ := List.mem_map.mp hp
      exact List.mem_map_of_mem (List.mem_of_mem_filter hrow)
  have hdescriptions := hpairs.map Prod.snd
  rw [List.map_map, List.map_flatMap] at hdescriptions
  have hrecordings : (m.clients.flatMap fun c => c.sent.map Prod.snd) =
      m.clients.flatMap fun c => c.recording.map Row.description :=
    List.flatMap_congr fun c hc => (hok.clients c hc).all_sent (hf c hc)
  rwa [hrecordings] at hdescriptions

end Merges

section Example

/-- The request of the second client is recorded before the one of the first, which then makes its
other call before the second client has got its ack. -/
lemma two_replays_run : ∃ t m, Run MergeStep .fresh t m ∧
    (∀ a, .daemon a ∈ t → a.ofServer = true) ∧ (∀ c ∈ m.clients, c.phase = .finished) ∧
    m.clients.map ReplayClient.recording =
      [[⟨1, "Hello, PhasicJ!", 0⟩, ⟨2, "Bye", 1⟩], [⟨1, "Hello", 0⟩]] ∧
    m.daemon.rows.map Row.description = ["Hello", "Hello, PhasicJ!", "Bye"] := by
  have hstart : MergeStep .fresh .start
      ⟨[.start [⟨1, "Hello, PhasicJ!", 0⟩, ⟨2, "Bye", 1⟩]], .fresh⟩ := .start
  have h := (Run.single hstart).snoc (@MergeStep.start _ [⟨1, "Hello", 0⟩])
  have h := h.snoc (.call (r := 0) (List.nil_append _).symm rfl rfl rfl)
  have h := h.snoc (.call (r := 1) (List.singleton_append).symm rfl rfl rfl)
  have h := h.snoc (.daemon (.inl rfl) (.arrive (r := 0) rfl rfl))
  have h := h.snoc (.daemon (.inl rfl) (.arrive (r := 1) rfl rfl))
  have h := h.snoc (.daemon (.inl rfl) (.lock (r := 1) rfl rfl ⟨rfl, rfl, rfl⟩))
  have h := h.snoc (.daemon (.inl rfl) (.insert (r := 1) rfl rfl))
  have h := h.snoc (.daemon (.inl rfl) (.unlock (r := 1) rfl rfl))
  have h := h.snoc (.daemon (.inl rfl) (.lock (r := 0) rfl rfl ⟨rfl, rfl, rfl⟩))
  have h := h.snoc (.daemon (.inl rfl) (.sendAck (r := 1) rfl rfl))
  have h := h.snoc (.daemon (.inl rfl) (.insert (r := 0) rfl rfl))
  have h := h.snoc (.daemon (.inl rfl) (.unlock (r := 0) rfl rfl))
  have h := h.snoc (.daemon (.inl rfl) (.sendAck (r := 0) rfl rfl))
  have h := h.snoc (.acked (List.nil_append _).symm rfl (List.nil_append _).symm
    (.deliver (r := 0) rfl rfl))
  have h := h.snoc (.call (r := 2) (List.nil_append _).symm rfl rfl rfl)
  have h := h.snoc (.acked (List.singleton_append).symm rfl (List.nil_append _).symm
    (.deliver (r := 1) rfl rfl))
  have h := h.snoc (.daemon (.inl rfl) (.arrive (r := 2) rfl rfl))
  have h := h.snoc (.daemon (.inl rfl) (.lock (r := 2) rfl rfl ⟨rfl, rfl, rfl⟩))
  have h := h.snoc (.finish (List.singleton_append).symm rfl rfl)
  have h := h.snoc (.daemon (.inl rfl) (.insert (r := 2) rfl rfl))
  have h := h.snoc (.daemon (.inl rfl) (.unlock (r := 2) rfl rfl))
  have h := h.snoc (.daemon (.inl rfl) (.sendAck (r := 2) rfl rfl))
  have h := h.snoc (.acked (List.nil_append _).symm rfl (List.singleton_append).symm
    (.deliver (r := 2) rfl rfl))
  have h := h.snoc (.finish (List.nil_append _).symm rfl rfl)
  exact ⟨_, _, h, by simp [Action.ofServer], by simp, rfl, rfl⟩

theorem recordings_merged_two : ∃ t m, Run MergeStep .fresh t m ∧
    m.daemon.rows.map Row.description = ["Hello", "Hello, PhasicJ!", "Bye"] ∧
    m.clients.map (fun c => (m.rowsOf c).map Row.description) =
      [["Hello, PhasicJ!", "Bye"], ["Hello"]] ∧
    (m.daemon.rows.map Row.description).Perm ["Hello, PhasicJ!", "Bye", "Hello"] := by
  obtain ⟨t, m, h, hserver, hfinished, hrecordings, hrows⟩ := two_replays_run
  obtain ⟨-, hclients, hall⟩ := recordings_merged h
  refine ⟨t, m, h, hrows, ?_, ?_⟩
  · have hc : m.clients.map (fun c => (m.rowsOf c).map Row.description) =
        (m.clients.map ReplayClient.recording).map (List.map Row.description) := by
      rw [List.map_map]
      exact List.map_congr_left fun c hc => (hclients c hc).2 (hfinished c hc)
    rw [hc, hrecordings]
    rfl
  · have hc := hall hserver hfinished
    rw [← List.flatMap_map ReplayClient.recording (List.map Row.description), hrecordings] at hc
    exact hc

end Example

end PhasicJ.Daemon
