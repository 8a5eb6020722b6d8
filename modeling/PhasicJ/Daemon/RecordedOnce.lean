import PhasicJ.Daemon.Recorder

/-! Every acknowledged event is recorded once, in the order of the handlers. -/

namespace PhasicJ.Daemon

open Sync Transitions

lemma nextId_gt {rows : List Row} {row : Row} (h : row ∈ rows) : row.id < nextId rows := by
  induction rows with
  | nil => cases h
  | cons first rows ih =>
    simp only [nextId, List.map_cons, List.foldr_cons] at ih ⊢
    rcases List.mem_cons.mp h with rfl | h
    · omega
    · have := ih h
      omega

lemma holders_snoc (t : List Action) (a : Action) :
    holders (t ++ [a]) = holders t ++ a.locks.toList := by
  cases h : a.locks <;> simp [holders, List.filterMap_append, h]

@[simp] lemma State.put_request (s : State) (r r' : ℕ) (q : Request) :
    (s.put r q).request r' = if r' = r then some q else s.request r' := by
  simp [State.put, Function.update_apply]

@[simp] lemma State.put_rows (s : State) (r : ℕ) (q : Request) : (s.put r q).rows = s.rows := rfl

@[simp] lemma State.setConnection_request (s : State) (m : Mutex ℕ (List Row)) :
    (s.setConnection m).request = s.request := rfl

@[simp] lemma State.setConnection_rows (s : State) (m : Mutex ℕ (List Row)) :
    (s.setConnection m).rows = m.data := rfl

structure State.TableOk (s : State) : Prop where
  recorded : ∀ r q, s.request r = some q → q.stage.isRecorded →
    ∃ row ∈ s.rows, row.request = r ∧ row.description = q.description
  owned : ∀ row ∈ s.rows, ∃ q, s.request row.request = some q ∧ q.stage.isRecorded
  ids : s.rows.Pairwise fun row row' => row.id < row'.id
  once : (s.rows.map Row.request).Nodup

/-- The rows stand in the order in which the handlers held the mutex. -/
structure State.OrderOk (t : List Action) (s : State) : Prop where
  holds : ∀ r q, s.request r = some q → q.stage.holdsConnection →
    s.databaseConnection.holder = some r
  order : (s.rows.map Row.request).Sublist (holders t)
  last : ∀ r q, s.request r = some q → q.stage = .locked →
    ∃ before, holders t = before ++ [r] ∧ (s.rows.map Row.request).Sublist before
  held : ∀ r ∈ holders t, ∃ q, s.request r = some q ∧ q.stage ≠ .sent ∧ q.stage ≠ .waiting
  once : (holders t).Nodup

section Preservation

variable {t : List Action} {s u : State} {a : Action} {r : ℕ} {q q' : Request}
  {m : Mutex ℕ (List Row)}

lemma State.TableOk.put (h : s.TableOk) (hm : m.data = s.rows)
    (hr : q'.stage.isRecorded →
      ∃ q, s.request r = some q ∧ q.stage.isRecorded ∧ q'.description = q.description)
    (hk : ∀ q, s.request r = some q → q.stage.isRecorded → q'.stage.isRecorded) :
    ((s.put r q').setConnection m).TableOk := by
  refine ⟨?_, ?_, ?_, ?_⟩
  · intro r₁ q₁ hq₁ hrec
    rw [State.setConnection_rows, hm]
    by_cases he : r₁ = r
    · obtain rfl : q' = q₁ := by simpa [he] using hq₁
      obtain ⟨q, hq, hrec', hd⟩ := hr hrec
      rw [he, hd]
      exact h.recorded r q hq hrec'
    · exact h.recorded r₁ q₁ (by simpa [he] using hq₁) hrec
  · intro row hrow
    rw [State.setConnection_rows, hm] at hrow
    obtain ⟨q, hq, hrec⟩ := h.owned row hrow
    by_cases he : row.request = r
    · exact ⟨q', by simp [he], hk q (he ▸ hq) hrec⟩
    · exact ⟨q, by simpa [he] using hq, hrec⟩
  · rw [State.setConnection_rows, hm]
    exact h.ids
  · rw [State.setConnection_rows, hm]
    exact h.once

lemma State.TableOk.insert (h : s.TableOk) (hq : s.request r = some q)
    (hn : q.stage.isRecorded = false) (hq' : q'.stage.isRecorded)
    (hm : m.data = s.rows ++ [⟨nextId s.rows, q'.description, r⟩]) :
    ((s.put r q').setConnection m).TableOk := by
  refine ⟨?_, ?_, ?_, ?_⟩
  · intro r₁ q₁ hq₁ hrec
    rw [State.setConnection_rows, hm]
    by_cases he : r₁ = r
    · obtain rfl : q' = q₁ := by simpa [he] using hq₁
      exact ⟨_, List.mem_append_right _ (List.mem_singleton_self _), he.symm, rfl⟩
    · obtain ⟨row, hrow, hrow'⟩ := h.recorded r₁ q₁ (by simpa [he] using hq₁) hrec
      exact ⟨row, List.mem_append_left _ hrow, hrow'⟩
  · intro row hrow
    rw [State.setConnection_rows, hm] at hrow
    rcases List.mem_append.mp hrow with hrow | hrow
    · obtain ⟨q₁, hq₁, hrec⟩ := h.owned row hrow
      have he : row.request ≠ r := by
        intro he
        rw [he, hq] at hq₁
        obtain rfl := Option.some.inj hq₁
        simp [hn] at hrec
      exact ⟨q₁, by simpa [he] using hq₁, hrec⟩
    · obtain rfl := List.mem_singleton.mp hrow
      exact ⟨q', by simp, hq'⟩
  · rw [State.setConnection_rows, hm]
    refine List.pairwise_append.mpr ⟨h.ids, List.pairwise_singleton .., ?_⟩
    intro row hrow row' hrow'
    obtain rfl := List.mem_singleton.mp hrow'
    exact nextId_gt hrow
  · rw [State.setConnection_rows, hm, List.map_append, List.nodup_append]
    refine ⟨h.once, List.nodup_singleton _, ?_⟩
    rintro r₁ hr₁ r₂ hr₂ rfl
    obtain ⟨row, hrow, rfl⟩ := List.mem_map.mp hr₁
    obtain rfl : row.request = r := by simpa using hr₂
    obtain ⟨q₁, hq₁, hrec⟩ := h.owned row hrow
    rw [hq] at hq₁
    obtain rfl := Option.some.inj hq₁
    simp [hn] at hrec

lemma State.TableOk.step (h : s.TableOk) (hs : Step s a u) : u.TableOk := by
  cases hs with
  | insert hq hstage => exact h.insert hq (by rw [hstage]; rfl) rfl rfl
  | send hq =>
    refine h.put rfl (fun hrec => nomatch hrec) ?_
    intro q hq'
    simp [hq] at hq'
  | arrive hq hstage | insertFails hq hstage | lockPanics hq hstage _ =>
    refine h.put rfl (fun hrec => nomatch hrec) ?_
    intro q hq' hrec
    obtain rfl := Option.some.inj (hq.symm.trans hq')
    rw [hstage] at hrec
    cases hrec
  | lock hq hstage hm =>
    refine h.put hm.data (fun hrec => nomatch hrec) ?_
    intro q hq' hrec
    obtain rfl := Option.some.inj (hq.symm.trans hq')
    rw [hstage] at hrec
    cases hrec
  | unlock hq hstage | sendAck hq hstage | deliver hq hstage =>
    exact h.put rfl (fun _ => ⟨_, hq, by rw [hstage]; rfl, rfl⟩) (fun _ _ _ => rfl)

lemma State.OrderOk.put (h : s.OrderOk t) (hl : a.locks = none)
    (hq : ∀ q, s.request r = some q → q.stage ≠ .sent → q.stage ≠ .waiting →
      q'.stage ≠ .sent ∧ q'.stage ≠ .waiting)
    (hn : q'.stage.holdsConnection = false) (hm : m.data = s.rows)
    (hh : m.holder = s.databaseConnection.holder ∨ s.databaseConnection.holder = some r) :
    ((s.put r q').setConnection m).OrderOk (t ++ [a]) := by
  have ht : holders (t ++ [a]) = holders t := by simp [holders_snoc, hl]
  refine ⟨?_, ?_, ?_, ?_, ht ▸ h.once⟩
  · intro r₁ q₁ hq₁ hc
    by_cases he : r₁ = r
    · obtain rfl : q' = q₁ := by simpa [he] using hq₁
      rw [hn] at hc
      cases hc
    · have hold := h.holds r₁ q₁ (by simpa [he] using hq₁) hc
      rcases hh with hsame | hr
      · exact hsame.trans hold
      · exact absurd (Option.some.inj (hold.symm.trans hr)) he
  · rw [State.setConnection_rows, hm, ht]
    exact h.order
  · intro r₁ q₁ hq₁ hstage
    rw [State.setConnection_rows, hm, ht]
    by_cases he : r₁ = r
    · obtain rfl : q' = q₁ := by simpa [he] using hq₁
      rw [hstage] at hn
      cases hn
    · exact h.last r₁ q₁ (by simpa [he] using hq₁) hstage
  · intro r₁ hr₁
    obtain ⟨q₁, hq₁, hs, hw⟩ := h.held r₁ (ht ▸ hr₁)
    by_cases he : r₁ = r
    · exact ⟨q', by simp [he], hq q₁ (he ▸ hq₁) hs hw⟩
    · exact ⟨q₁, by simpa [he] using hq₁, hs, hw⟩

lemma State.OrderOk.lock (h : s.OrderOk t) (hq : s.request r = some q) (hw : q.stage = .waiting)
    (hq' : q'.stage = .locked) (hm : s.databaseConnection.Locks r m) :
    ((s.put r q').setConnection m).OrderOk (t ++ [.lock r]) := by
  have ht : holders (t ++ [.lock r]) = holders t ++ [r] := holders_snoc t (.lock r)
  have hrows : m.data = s.rows := hm.data
  have hother : ∀ r₁ q₁, r₁ ≠ r → (s.put r q').request r₁ = some q₁ →
      q₁.stage.holdsConnection = false := by
    intro r₁ q₁ he hq₁
    by_contra hc
    have := h.holds r₁ q₁ (by simpa [he] using hq₁) (by simpa using hc)
    rw [hm.free] at this
    cases this
  refine ⟨?_, ?_, ?_, ?_, ?_⟩
  · intro r₁ q₁ hq₁ hc
    by_cases he : r₁ = r
    · rw [he]
      exact hm.holder
    · rw [hother r₁ q₁ he hq₁] at hc
      cases hc
  · rw [State.setConnection_rows, hrows, ht]
    exact h.order.trans (List.sublist_append_left ..)
  · intro r₁ q₁ hq₁ hstage
    by_cases he : r₁ = r
    · refine ⟨holders t, he ▸ ht, ?_⟩
      rw [State.setConnection_rows, hrows]
      exact h.order
    · have := hother r₁ q₁ he hq₁
      rw [hstage] at this
      cases this
  · intro r₁ hr₁
    by_cases he : r₁ = r
    · exact ⟨q', by simp [he], by rw [hq']; nofun, by rw [hq']; nofun⟩
    · obtain ⟨q₁, hq₁, hsw⟩ := h.held r₁ (by simpa [ht, he] using hr₁)
      exact ⟨q₁, by simpa [he] using hq₁, hsw⟩
  · rw [ht, List.nodup_append]
    refine ⟨h.once, List.nodup_singleton _, ?_⟩
    rintro r₁ hr₁ r₂ hr₂ rfl
    obtain ⟨q₁, hq₁, -, hw₁⟩ := h.held r₁ hr₁
    obtain rfl : r₁ = r := by simpa using hr₂
    obtain rfl := Option.some.inj (hq.symm.trans hq₁)
    exact hw₁ hw

lemma State.OrderOk.insert (h : s.OrderOk t) (hq : s.request r = some q)
    (hl : q.stage = .locked) (hq' : q'.stage = .inserted) {row : Row} (hrow : row.request = r)
    (hd : m.data = s.rows ++ [row]) (hh : m.holder = s.databaseConnection.holder) :
    ((s.put r q').setConnection m).OrderOk (t ++ [.insert r]) := by
  have ht : holders (t ++ [.insert r]) = holders t := by simp [holders_snoc, Action.locks]
  have hr : s.databaseConnection.holder = some r := h.holds r q hq (by rw [hl]; rfl)
  refine ⟨?_, ?_, ?_, ?_, ht ▸ h.once⟩
  · intro r₁ q₁ hq₁ hc
    by_cases he : r₁ = r
    · rw [he]
      exact hh.trans hr
    · exact hh.trans (h.holds r₁ q₁ (by simpa [he] using hq₁) hc)
  · obtain ⟨before, hb, hsub⟩ := h.last r q hq hl
    rw [State.setConnection_rows, hd, ht, hb, List.map_append, List.map_singleton, hrow]
    exact hsub.append (List.Sublist.refl _)
  · intro r₁ q₁ hq₁ hstage
    by_cases he : r₁ = r
    · obtain rfl : q' = q₁ := by simpa [he] using hq₁
      rw [hq'] at hstage
      cases hstage
    · have hold := h.holds r₁ q₁ (by simpa [he] using hq₁) (by rw [hstage]; rfl)
      exact absurd (Option.some.inj (hold.symm.trans hr)) he
  · intro r₁ hr₁
    by_cases he : r₁ = r
    · exact ⟨q', by simp [he], by rw [hq']; nofun, by rw [hq']; nofun⟩
    · obtain ⟨q₁, hq₁, hsw⟩ := h.held r₁ (ht ▸ hr₁)
      exact ⟨q₁, by simpa [he] using hq₁, hsw⟩

lemma State.OrderOk.step (h : s.OrderOk t) (hs : Step s a u) : u.OrderOk (t ++ [a]) := by
  cases hs with
  | lock hq hw hm => exact h.lock hq hw rfl hm
  | insert hq hl => exact h.insert hq hl rfl rfl rfl rfl
  | send hq =>
    refine h.put rfl ?_ rfl rfl (.inl rfl)
    intro q hq'
    simp [hq] at hq'
  | arrive hq hstage =>
    refine h.put rfl ?_ rfl rfl (.inl rfl)
    intro q hq' hsent
    obtain rfl := Option.some.inj (hq.symm.trans hq')
    exact absurd hstage hsent
  | unlock hq hstage | insertFails hq hstage =>
    exact h.put rfl (fun _ _ _ _ => ⟨nofun, nofun⟩) rfl rfl
      (.inr (h.holds _ _ hq (by rw [hstage]; rfl)))
  | sendAck _ _ | deliver _ _ | lockPanics _ _ _ =>
    exact h.put rfl (fun _ _ _ _ => ⟨nofun, nofun⟩) rfl rfl (.inl rfl)

lemma Step.rows_le (hs : Step s a u) : s.rows <+: u.rows := by
  cases hs with
  | insert _ _ => exact List.prefix_append ..
  | lock _ _ hm =>
    rw [State.setConnection_rows, hm.data]
    exact List.prefix_refl _
  | _ => exact List.prefix_refl _

lemma Step.delivered_stays (hs : Step s a u) (hq : s.request r = some q)
    (hd : q.stage = .delivered) : ∃ q', u.request r = some q' ∧ q'.stage = .delivered := by
  have hput : ∀ r' q₁ q₂, s.request r' = some q₁ → q₁.stage ≠ .delivered →
      ∃ q', (s.put r' q₂).request r = some q' ∧ q'.stage = .delivered := by
    intro r' q₁ q₂ hq₁ hne
    have he : r ≠ r' := by
      rintro rfl
      obtain rfl := Option.some.inj (hq.symm.trans hq₁)
      exact hne hd
    exact ⟨q, by simpa [he] using hq, hd⟩
  cases hs with
  | @send r' _ _ hn =>
    have he : r ≠ r' := by
      rintro rfl
      simp [hn] at hq
    exact ⟨q, by simpa [he] using hq, hd⟩
  | arrive h hs | unlock h hs | sendAck h hs | deliver h hs | insert h hs | insertFails h hs
  | lock h hs _ | lockPanics h hs _ => exact hput _ _ _ h (by rw [hs]; nofun)

end Preservation

section Runs

variable {t : List Action} {s u : State}

lemma tableOk_run (h : Run Step .fresh t s) : s.TableOk := by
  refine h.invariant State.TableOk (fun _ _ _ hu hs => hu.step hs) ?_
  constructor <;> simp [State.fresh, State.rows, Mutex.new]

lemma orderOk_run (h : Run Step .fresh t s) : s.OrderOk t := by
  refine Run.trace_invariant (fun t s => s.OrderOk t) (fun _ _ _ _ hu hs => hu.step hs) h ?_
  constructor <;> simp [State.fresh, State.rows, Mutex.new, holders]

lemma rows_le (h : Run Step s t u) : s.rows <+: u.rows :=
  h.invariant (fun v => s.rows <+: v.rows) (fun _ _ _ hv hs => hv.trans hs.rows_le)
    (List.prefix_refl _)

lemma delivered_run (h : Run Step .fresh t s) {r : ℕ} (hd : .deliver r ∈ t) :
    ∃ q, s.request r = some q ∧ q.stage = .delivered := by
  induction h with
  | nil => cases hd
  | @snoc u v t a _ hs ih =>
    rcases List.mem_append.mp hd with hd | hd
    · obtain ⟨q, hq, hstage⟩ := ih hd
      exact hs.delivered_stays hq hstage
    · obtain rfl := List.mem_singleton.mp hd
      cases hs with
      | @deliver _ q _ _ => exact ⟨{ q with stage := .delivered }, by simp, rfl⟩

lemma delivered_before_sent {t₁ t₂ : List Action} {client r₁ r₂ : ℕ}
    (h : Run Step .fresh (t₁ ++ .send client r₂ :: t₂) s) (hd : .deliver r₁ ∈ t₁) {row₁ row₂ : Row}
    (h₁ : row₁ ∈ s.rows) (h₂ : row₂ ∈ s.rows) (hr₁ : row₁.request = r₁)
    (hr₂ : row₂.request = r₂) : row₁.id < row₂.id := by
  have hok := tableOk_run h
  obtain ⟨u, hu, hrest⟩ := h.split
  obtain ⟨later, hlater⟩ := rows_le hrest
  have hids := hok.ids
  rw [← hlater] at hids h₁ h₂
  have hlast : row₂ ∈ later := by
    refine (List.mem_append.mp h₂).resolve_left fun hin => ?_
    obtain ⟨q, hq, -⟩ := (tableOk_run hu).owned row₂ hin
    obtain ⟨_, hs, -⟩ := hrest.cons_split
    cases hs with
    | send hn => simp [hr₂, hn] at hq
  have hfirst : row₁ ∈ u.rows := by
    obtain ⟨q, hq, hstage⟩ := delivered_run hu hd
    obtain ⟨row, hrow, hrow', -⟩ := (tableOk_run hu).recorded r₁ q hq (by rw [hstage]; rfl)
    have hinj := List.inj_on_of_nodup_map hok.once
    rw [← hlater] at hinj
    rwa [hinj h₁ (List.mem_append_left _ hrow) (hr₁.trans hrow'.symm)]
  exact (List.pairwise_append.mp hids).2.2 row₁ hfirst row₂ hlast

/-- The daemon records every acknowledged event exactly once, in the order in which the handlers
held the mutex, and so in the order of each client that waits for its acks. -/
theorem recorded_exactly_once (h : Run Step .fresh t s) :
    (∀ r q, s.request r = some q → q.stage.isAcked →
      ∃ row ∈ s.rows, row.request = r ∧ row.description = q.description ∧
        ∀ row' ∈ s.rows, row'.request = r → row' = row) ∧
    (∀ row ∈ s.rows, ∃ q, s.request row.request = some q ∧ q.stage ≠ .sent ∧
      row.description = q.description ∧
      ∀ row' ∈ s.rows, row'.request = row.request → row' = row) ∧
    s.rows.Pairwise (fun row row' => row.id < row'.id) ∧
    (s.rows.map Row.request).Sublist (holders t) ∧ (holders t).Nodup ∧
    ∀ client, Waits client t → ∀ t₁ t₂ r₁ r₂, t = t₁ ++ .send client r₂ :: t₂ →
      .send client r₁ ∈ t₁ → ∀ row₁ ∈ s.rows, ∀ row₂ ∈ s.rows, row₁.request = r₁ →
      row₂.request = r₂ → row₁.id < row₂.id := by
  have hok := tableOk_run h
  have horder := orderOk_run h
  have hinj := List.inj_on_of_nodup_map hok.once
  refine ⟨?_, ?_, hok.ids, horder.order, horder.once, ?_⟩
  · intro r q hq hacked
    have hrec : q.stage.isRecorded := by
      cases hs : q.stage <;> simp_all [Stage.isAcked, Stage.isRecorded]
    obtain ⟨row, hrow, hr, hd⟩ := hok.recorded r q hq hrec
    exact ⟨row, hrow, hr, hd, fun row' hrow' hr' => hinj hrow' hrow (hr'.trans hr.symm)⟩
  · intro row hrow
    obtain ⟨q, hq, hrec⟩ := hok.owned row hrow
    refine ⟨q, hq, ?_, ?_, fun row' hrow' hr => hinj hrow' hrow hr⟩
    · intro hsent
      rw [hsent] at hrec
      cases hrec
    · obtain ⟨row', hrow', hr, hd⟩ := hok.recorded _ q hq hrec
      rwa [← hinj hrow' hrow hr]
  · rintro client hw t₁ t₂ r₁ r₂ rfl hsent row₁ h₁ row₂ h₂ hr₁ hr₂
    exact delivered_before_sent h (hw t₁ t₂ r₁ r₂ rfl hsent) h₁ h₂ hr₁ hr₂

end Runs

section Example

/-- The first request waits while the second client's one is recorded and acknowledged and that
client sends another, which waits for the first in its turn. -/
def twoClients : List Action :=
  [.send 0 0, .send 1 1, .arrive 0, .arrive 1, .lock 1, .insert 1, .unlock 1, .sendAck 1,
    .deliver 1, .send 1 2, .lock 0, .arrive 2, .insert 0, .unlock 0, .lock 2, .sendAck 0, .insert 2]

lemma two_clients_run : ∃ s, Run Step .fresh twoClients s ∧
    s.request 0 = some ⟨"Hello", .acked⟩ ∧ s.request 1 = some ⟨"Hello, PhasicJ!", .delivered⟩ ∧
    s.rows.map Row.request = [1, 0, 2] := by
  have h₀ : Step .fresh (.send 0 0) (State.fresh.put 0 ⟨"Hello", .sent⟩) := .send rfl
  have h := (Run.single h₀).snoc (@Step.send _ 1 1 "Hello, PhasicJ!" rfl)
  have h := (h.snoc (.arrive (r := 0) rfl rfl)).snoc (.arrive (r := 1) rfl rfl)
  have h := (h.snoc (.lock (r := 1) rfl rfl ⟨rfl, rfl, rfl⟩)).snoc (.insert (r := 1) rfl rfl)
  have h := (h.snoc (.unlock (r := 1) rfl rfl)).snoc (.sendAck (r := 1) rfl rfl)
  have h := h.snoc (.deliver (r := 1) rfl rfl)
  have h := h.snoc (@Step.send _ 2 1 "Bye" rfl)
  have h := (h.snoc (.lock (r := 0) rfl rfl ⟨rfl, rfl, rfl⟩)).snoc (.arrive (r := 2) rfl rfl)
  have h := (h.snoc (.insert (r := 0) rfl rfl)).snoc (.unlock (r := 0) rfl rfl)
  have h := (h.snoc (.lock (r := 2) rfl rfl ⟨rfl, rfl, rfl⟩)).snoc (.sendAck (r := 0) rfl rfl)
  exact ⟨_, h.snoc (.insert (r := 2) rfl rfl), rfl, rfl, rfl⟩

lemma two_clients_wait : Waits 1 twoClients := by
  intro t₁ t₂ r₁ r₂ ht hs
  -- client 1 sends at two places, and only the second is after a request of its own
  simp only [twoClients, List.cons_eq_append_iff, List.cons.injEq, Action.send.injEq, one_ne_zero,
    false_and, and_false, true_and, reduceCtorEq, List.nil_eq, List.append_eq_nil_iff, exists_const,
    or_self, or_false, ↓existsAndEq, false_or] at ht
  obtain ⟨_, rfl, ⟨rfl, -⟩ | ⟨rfl, -⟩⟩ := ht
  · simp at hs
  · obtain rfl : r₁ = 1 := by simpa using hs
    decide

theorem recorded_exactly_once_interleaved : ∃ s, Run Step .fresh twoClients s ∧
    s.rows.map Row.request = [1, 0, 2] ∧
    (∃ row ∈ s.rows, row.request = 0 ∧ row.description = "Hello" ∧
      ∀ row' ∈ s.rows, row'.request = 0 → row' = row) ∧
    (∃ row ∈ s.rows, row.request = 1 ∧ row.description = "Hello, PhasicJ!" ∧
      ∀ row' ∈ s.rows, row'.request = 1 → row' = row) ∧
    ∀ row₁ ∈ s.rows, ∀ row₂ ∈ s.rows, row₁.request = 1 → row₂.request = 2 → row₁.id < row₂.id := by
  obtain ⟨s, h, h₀, h₁, hrows⟩ := two_clients_run
  obtain ⟨hacked, -, -, -, -, horder⟩ := recorded_exactly_once h
  refine ⟨s, h, hrows, hacked 0 _ h₀ rfl, hacked 1 _ h₁ rfl, ?_⟩
  exact horder 1 two_clients_wait (twoClients.take 9) (twoClients.drop 10) 1 2 rfl (by decide)

end Example

end PhasicJ.Daemon
