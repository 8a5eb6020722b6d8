import PhasicJ.Daemon.Hosts
import PhasicJ.Daemon.RecordedOnce

/-! What daemons record stays, however they end, and no database has more than one daemon. -/

namespace PhasicJ.Daemon

open Sync Transitions

/-- A daemon that has created its table has made all the rows in it. -/
structure Host.Ok (h h₀ : Host) (t : List HostAction) : Prop where
  created : ∀ n, .createTable n ∈ t → ∃ path s, h.databaseOf n = some path ∧
    h.database path = .rtevents s.rows ∧ Run Step .fresh (served n t) s ∧
    ∀ s', h.recorder? n = some s' → s' = s
  serving : ∀ n s, h.recorder? n = some s → .createTable n ∈ t
  starting : ∀ n p, h.process n = some p → p.progress.isStarting → .createTable n ∉ t
  idle : ∀ n, .createTable n ∉ t → served n t = []
  apart : ∀ n m path, .createTable n ∈ t → .createTable m ∈ t → h.databaseOf n = some path →
    h.databaseOf m = some path → n = m
  table : ∀ path rows, h.database path = .rtevents rows → h₀.database path = .rtevents rows ∨
    ∃ n, .createTable n ∈ t ∧ h.databaseOf n = some path
  old : ∀ path rows, h₀.database path = .rtevents rows → h.database path = .rtevents rows ∧
    ∀ n, .createTable n ∈ t → h.databaseOf n ≠ some path

section Moves

variable {h u : Host} {n m : ℕ} {p : Process} {progress : Progress} {path : String}

lemma Host.move_process (h : Host) (n m : ℕ) (p : Process) (progress : Progress) :
    (h.move n p progress).process m =
      if m = n then some { p with progress } else h.process m := by
  simp [Host.move, Function.update_apply]

lemma Host.move_databaseOf (hp : h.process n = some p) (progress : Progress) (m : ℕ) :
    (h.move n p progress).databaseOf m = h.databaseOf m := by
  rw [databaseOf, databaseOf, move_process]
  by_cases hm : m = n <;> simp [hm, hp]

lemma Host.move_recorder? (h : Host) (n m : ℕ) (p : Process) (progress : Progress) :
    (h.move n p progress).recorder? m =
      if m = n then progress.recorder? else h.recorder? m := by
  rw [recorder?, recorder?, move_process]
  by_cases hm : m = n <;> simp [hm]

lemma State.withRows_rows (s : State) : s.withRows s.rows = s := rfl

lemma served_snoc (n : ℕ) (t : List HostAction) (a : HostAction) :
    served n (t ++ [a]) = served n t ++ (a.served n).toList := by
  cases h : a.served n <;> simp [served, List.filterMap_append, h]

lemma mem_snoc_of_ne {t : List HostAction} {a : HostAction} (ha : a ≠ .createTable n) :
    .createTable n ∈ t ++ [a] ↔ .createTable n ∈ t := by
  simp [ha.symm]

end Moves

section Preservation

variable {h₀ h u : Host} {t : List HostAction} {a : HostAction} {n m : ℕ} {p : Process}

lemma Host.Ok.quiet (hok : h.Ok h₀ t) (hd : u.database = h.database)
    (hc : ∀ m, a ≠ .createTable m) (ha : ∀ m, a.served m = none)
    (hpath : ∀ m path, h.databaseOf m = some path → u.databaseOf m = some path)
    (hrec : ∀ m s, u.recorder? m = some s → h.recorder? m = some s)
    (hstart : ∀ m q, u.process m = some q → q.progress.isStarting → .createTable m ∉ t) :
    u.Ok h₀ (t ++ [a]) := by
  have hmem : ∀ m, .createTable m ∈ t ++ [a] ↔ .createTable m ∈ t := fun m => mem_snoc_of_ne (hc m)
  have hserved : ∀ m, served m (t ++ [a]) = served m t := by
    intro m
    rw [served_snoc, ha, Option.toList_none, List.append_nil]
  have hpath' : ∀ m path, .createTable m ∈ t → u.databaseOf m = some path →
      h.databaseOf m = some path := by
    intro m path hm hu
    obtain ⟨path', _, hp, -⟩ := hok.created m hm
    rw [hpath m path' hp] at hu
    rw [hp, hu]
  refine ⟨?_, ?_, ?_, ?_, ?_, ?_, ?_⟩
  · intro m hm
    obtain ⟨path, s, hp, hdata, hr, hs⟩ := hok.created m ((hmem m).mp hm)
    exact ⟨path, s, hpath m path hp, by rw [hd, hdata], by rwa [hserved],
      fun s' hs' => hs s' (hrec m s' hs')⟩
  · intro m s hs
    exact (hmem m).mpr (hok.serving m s (hrec m s hs))
  · intro m q hq hs
    rw [hmem]
    exact hstart m q hq hs
  · intro m hm
    rw [hserved]
    exact hok.idle m (by rwa [hmem] at hm)
  · intro i j path hi hj hpi hpj
    rw [hmem] at hi hj
    exact hok.apart i j path hi hj (hpath' i path hi hpi) (hpath' j path hj hpj)
  · intro path rows hrows
    rw [hd] at hrows
    rcases hok.table path rows hrows with h₁ | ⟨i, hi, hp⟩
    · exact .inl h₁
    · exact .inr ⟨i, (hmem i).mpr hi, hpath i path hp⟩
  · intro path rows hrows
    obtain ⟨h₁, h₂⟩ := hok.old path rows hrows
    refine ⟨by rw [hd, h₁], fun i hi hp => ?_⟩
    rw [hmem] at hi
    exact h₂ i hi (hpath' i path hi hp)

/-- A daemon goes on with its start, or exits. -/
lemma Host.Ok.moved (hok : h.Ok h₀ t) (hp : h.process n = some p) {progress : Progress}
    (hd : u.database = h.database) (hu : u.process = (h.move n p progress).process)
    (hr : progress.recorder? = none)
    (hs : progress.isStarting = true → p.progress.isStarting = true)
    (hc : ∀ m, a ≠ .createTable m) (ha : ∀ m, a.served m = none) : u.Ok h₀ (t ++ [a]) := by
  have hpath : ∀ m, u.databaseOf m = h.databaseOf m := by
    intro m
    rw [← Host.move_databaseOf hp progress, Host.databaseOf, Host.databaseOf, hu]
  refine hok.quiet hd hc ha (fun m path hm => by rw [hpath, hm]) ?_ ?_
  · intro m s hm
    have hrec : u.recorder? m = (h.move n p progress).recorder? m := by
      rw [Host.recorder?, Host.recorder?, hu]
    rw [hrec, Host.move_recorder?] at hm
    split at hm
    · rw [hr] at hm
      cases hm
    · exact hm
  · intro m q hq hstart
    rw [hu, Host.move_process] at hq
    split at hq
    · next he =>
      obtain rfl := Option.some.inj hq
      exact he ▸ hok.starting n p hp (hs hstart)
    · exact hok.starting m q hq hstart

lemma Host.Ok.started (hok : h.Ok h₀ t) (hn : h.process n = none) (opts : Opts) :
    Host.Ok { h with process := Function.update h.process n (some ⟨opts, .started⟩) } h₀
      (t ++ [.start n]) := by
  refine hok.quiet rfl nofun (fun _ => rfl) ?_ ?_ ?_
  · intro m path hm
    have hne : m ≠ n := by
      rintro rfl
      simp [databaseOf, hn] at hm
    simpa [databaseOf, Function.update_of_ne hne] using hm
  · intro m s hm
    by_cases he : m = n
    · subst he
      simp [recorder?, Progress.recorder?] at hm
    · simpa [recorder?, Function.update_of_ne he] using hm
  · intro m q hq hs hm
    by_cases he : m = n
    · subst he
      obtain ⟨path, _, hp, -⟩ := hok.created m hm
      simp [databaseOf, hn] at hp
    · exact hok.starting m q (by simpa [Function.update_of_ne he] using hq) hs hm

/-- The database has no table, so that no daemon has created one in it. -/
lemma Host.Ok.create (hok : h.Ok h₀ t) (hp : h.process n = some p) (ho : p.progress = .opened)
    (hd : h.database p.opts.database = .noTable) :
    Host.Ok ((h.move n p (.serving .fresh)).store p.opts.database []) h₀
      (t ++ [.createTable n]) := by
  have hpath := Host.move_databaseOf hp (.serving .fresh)
  have hnew : .createTable n ∉ t := hok.starting n p hp (by rw [ho]; rfl)
  have hn : h.databaseOf n = some p.opts.database := by rw [databaseOf, hp, Option.map_some]
  have hother : ∀ m path, .createTable m ∈ t → h.databaseOf m = some path →
      path ≠ p.opts.database := by
    rintro m path hm hpm rfl
    obtain ⟨path, s, hp', hdata, -⟩ := hok.created m hm
    obtain rfl := Option.some.inj (hpm.symm.trans hp')
    rw [hd] at hdata
    cases hdata
  have hserved : ∀ m, served m (t ++ [.createTable n]) = served m t := by
    intro m
    rw [served_snoc]
    exact List.append_nil _
  have hcase : ∀ m, .createTable m ∈ t ++ [.createTable n] ↔ .createTable m ∈ t ∨ m = n := by
    intro m
    simp [eq_comm]
  refine ⟨?_, ?_, ?_, ?_, ?_, ?_, ?_⟩
  · intro m hm
    rw [hserved]
    rcases (hcase m).mp hm with hm | rfl
    · obtain ⟨path, s, hp', hdata, hr, hs⟩ := hok.created m hm
      have hne : m ≠ n := fun he => hnew (he ▸ hm)
      refine ⟨path, s, (hpath m).trans hp', ?_, hr, fun s' hs' => hs s' ?_⟩
      · rw [← hdata]
        exact Function.update_of_ne (hother m path hm hp') ..
      · change (h.move n p _).recorder? m = some s' at hs'
        rwa [move_recorder?, if_neg hne] at hs'
    · refine ⟨_, .fresh, (hpath m).trans hn, Function.update_self .., ?_, fun s' hs' => ?_⟩
      · rw [hok.idle m hnew]
        exact .nil _
      · change (h.move m p _).recorder? m = some s' at hs'
        rw [move_recorder?, if_pos rfl] at hs'
        exact (Option.some.inj hs').symm
  · intro m s hm
    change (h.move n p _).recorder? m = some s at hm
    rw [move_recorder?] at hm
    split at hm
    · next he => exact (hcase m).mpr (.inr he)
    · exact (hcase m).mpr (.inl (hok.serving m s hm))
  · intro m q hq hs hm
    change (h.move n p _).process m = some q at hq
    rw [move_process] at hq
    split at hq
    · obtain rfl := Option.some.inj hq
      cases hs
    · next hne => exact hok.starting m q hq hs (((hcase m).mp hm).resolve_right hne)
  · intro m hm
    rw [hserved]
    exact hok.idle m fun h' => hm ((hcase m).mpr (.inl h'))
  · intro i j path hi hj hpi hpj
    change (h.move n p _).databaseOf i = some path at hpi
    change (h.move n p _).databaseOf j = some path at hpj
    rw [hpath] at hpi hpj
    rcases (hcase i).mp hi with hi' | rfl <;> rcases (hcase j).mp hj with hj' | rfl
    · exact hok.apart i j path hi' hj' hpi hpj
    · exact absurd (Option.some.inj (hpj.symm.trans hn)) (hother i path hi' hpi)
    · exact absurd (Option.some.inj (hpi.symm.trans hn)) (hother j path hj' hpj)
    · rfl
  · intro path rows hrows
    by_cases he : path = p.opts.database
    · exact .inr ⟨n, (hcase n).mpr (.inr rfl), (hpath n).trans (by rw [hn, he])⟩
    · have hrows' : h.database path = .rtevents rows :=
        (Function.update_of_ne he ..).symm.trans hrows
      rcases hok.table path rows hrows' with h₁ | ⟨i, hi, hpi⟩
      · exact .inl h₁
      · exact .inr ⟨i, (hcase i).mpr (.inl hi), (hpath i).trans hpi⟩
  · intro path rows hrows
    obtain ⟨h₁, h₂⟩ := hok.old path rows hrows
    have hne : path ≠ p.opts.database := by
      rintro rfl
      rw [hd] at h₁
      cases h₁
    refine ⟨(Function.update_of_ne hne ..).trans h₁, fun i hi hpi => ?_⟩
    change (h.move n p _).databaseOf i = some path at hpi
    rw [hpath] at hpi
    rcases (hcase i).mp hi with hi | rfl
    · exact h₂ i hi hpi
    · exact hne (Option.some.inj (hpi.symm.trans hn))

/-- The rows that a handler sees are those that the daemon's handlers have inserted. -/
lemma Host.Ok.serve (hok : h.Ok h₀ t) (hp : h.process n = some p) {s u : State} {rows : List Row}
    {a : Action} (hs : p.progress = .serving s) (hd : h.database p.opts.database = .rtevents rows)
    (hstep : Step (s.withRows rows) a u) :
    Step s a u ∧ Host.Ok ((h.move n p (.serving u)).store p.opts.database u.rows) h₀
      (t ++ [.serve n a]) := by
  have hpath := Host.move_databaseOf hp (.serving u)
  have hn : h.databaseOf n = some p.opts.database := by rw [databaseOf, hp, Option.map_some]
  have hrec : h.recorder? n = some s := by simp [recorder?, hp, hs, Progress.recorder?]
  have hcn := hok.serving n s hrec
  have hmem : ∀ m, .createTable m ∈ t ++ [.serve n a] ↔ .createTable m ∈ t := fun m =>
    mem_snoc_of_ne nofun
  obtain ⟨path, s', hp', hdata, hr, hs'⟩ := hok.created n hcn
  obtain rfl := Option.some.inj (hn.symm.trans hp')
  obtain rfl := hs' s hrec
  obtain rfl : rows = s.rows := Database.rtevents.inj (hd.symm.trans hdata)
  rw [State.withRows_rows] at hstep
  have hother : ∀ m path, .createTable m ∈ t → h.databaseOf m = some path → m ≠ n →
      path ≠ p.opts.database := by
    rintro m path hm hpm hne rfl
    exact hne (hok.apart m n _ hm hcn hpm hn)
  have hserved : ∀ m, m ≠ n → served m (t ++ [.serve n a]) = served m t := by
    intro m hne
    rw [served_snoc, HostAction.served, if_neg hne.symm, Option.toList_none, List.append_nil]
  refine ⟨hstep, ?_, ?_, ?_, ?_, ?_, ?_, ?_⟩
  · intro m hm
    rw [hmem] at hm
    by_cases he : m = n
    · subst he
      refine ⟨_, u, (hpath m).trans hn, Function.update_self .., ?_, fun v hv => ?_⟩
      · rw [served_snoc, HostAction.served, if_pos rfl]
        exact hr.snoc hstep
      · change (h.move m p _).recorder? m = some v at hv
        rw [move_recorder?, if_pos rfl] at hv
        exact (Option.some.inj hv).symm
    · obtain ⟨path, v, hpm, hv, hrm, hvs⟩ := hok.created m hm
      refine ⟨path, v, (hpath m).trans hpm, ?_, by rwa [hserved m he], fun v' hv' => hvs v' ?_⟩
      · rw [← hv]
        exact Function.update_of_ne (hother m path hm hpm he) ..
      · change (h.move n p _).recorder? m = some v' at hv'
        rwa [move_recorder?, if_neg he] at hv'
  · intro m v hv
    change (h.move n p _).recorder? m = some v at hv
    rw [hmem]
    rw [move_recorder?] at hv
    split at hv
    · next he => exact he ▸ hcn
    · exact hok.serving m v hv
  · intro m q hq hst hm
    change (h.move n p _).process m = some q at hq
    rw [move_process] at hq
    split at hq
    · obtain rfl := Option.some.inj hq
      cases hst
    · exact hok.starting m q hq hst ((hmem m).mp hm)
  · intro m hm
    rw [hmem] at hm
    rw [hserved m fun he => hm (he ▸ hcn)]
    exact hok.idle m hm
  · intro i j path hi hj hpi hpj
    exact hok.apart i j path ((hmem i).mp hi) ((hmem j).mp hj) ((hpath i).symm.trans hpi)
      ((hpath j).symm.trans hpj)
  · intro path rows hrows
    by_cases he : path = p.opts.database
    · exact .inr ⟨n, (hmem n).mpr hcn, (hpath n).trans (by rw [hn, he])⟩
    · rcases hok.table path rows ((Function.update_of_ne he ..).symm.trans hrows) with
        h₁ | ⟨i, hi, hpi⟩
      · exact .inl h₁
      · exact .inr ⟨i, (hmem i).mpr hi, (hpath i).trans hpi⟩
  · intro path rows hrows
    obtain ⟨h₁, h₂⟩ := hok.old path rows hrows
    have hne : path ≠ p.opts.database := fun he => h₂ n hcn (he ▸ hn)
    exact ⟨(Function.update_of_ne hne ..).trans h₁,
      fun i hi hpi => h₂ i ((hmem i).mp hi) ((hpath i).symm.trans hpi)⟩

lemma Host.Ok.step (hok : h.Ok h₀ t) (hs : HostStep h a u) : u.Ok h₀ (t ++ [a]) := by
  cases hs with
  | start hn => exact hok.started hn _
  | createDirAll hp hpr =>
    exact hok.moved hp rfl rfl rfl (fun _ => by rw [hpr]; rfl) nofun fun _ => rfl
  | bind hp hpr => exact hok.moved hp rfl rfl rfl (fun _ => by rw [hpr]; rfl) nofun fun _ => rfl
  | openDatabase hp hpr =>
    exact hok.moved hp rfl rfl rfl (fun _ => by rw [hpr]; rfl) nofun fun _ => rfl
  | createTable hp ho hd => exact hok.create hp ho hd
  | serve hp hs hd hstep => exact (hok.serve hp hs hd hstep).2
  | exit hp => exact hok.moved hp rfl rfl rfl nofun nofun fun _ => rfl
  | removeSocket =>
    exact hok.quiet rfl nofun (fun _ => rfl) (fun _ _ hm => hm) (fun _ _ hm => hm) hok.starting

lemma host_run (h₁ : ∀ n, h₀.process n = none) (hr : Run HostStep h₀ t h) : h.Ok h₀ t := by
  refine hr.trace_invariant (fun t h => h.Ok h₀ t) (fun _ _ _ _ hok hs => hok.step hs) ?_
  refine ⟨nofun, fun n s hs => ?_, fun _ _ _ _ => nofun, fun _ _ => rfl, nofun,
    fun _ _ hrows => .inl hrows, fun _ _ hrows => ⟨hrows, nofun⟩⟩
  simp [Host.recorder?, h₁] at hs

end Preservation

section Rows

variable {h u : Host} {t : List HostAction} {a : HostAction} {n : ℕ} {path : String}
  {rows : List Row}

lemma databaseOf_step (hs : HostStep h a u) (hn : h.databaseOf n = some path) :
    u.databaseOf n = some path := by
  cases hs with
  | @start m opts hm =>
    have hne : n ≠ m := by
      rintro rfl
      simp [Host.databaseOf, hm] at hn
    simpa [Host.databaseOf, Function.update_of_ne hne] using hn
  | createDirAll hp | bind hp | openDatabase hp | createTable hp | serve hp | exit hp =>
    exact (Host.move_databaseOf hp _ n).trans hn
  | removeSocket => exact hn

lemma rows_step (hs : HostStep h a u) (hd : h.database path = .rtevents rows) :
    ∃ rows', u.database path = .rtevents rows' ∧ rows <+: rows' := by
  cases hs with
  | start | createDirAll | bind | openDatabase | exit | removeSocket =>
    exact ⟨rows, hd, List.prefix_rfl⟩
  | @createTable m p hp ho hnone =>
    have hne : path ≠ p.opts.database := by
      rintro rfl
      rw [hnone] at hd
      cases hd
    exact ⟨rows, (Function.update_of_ne hne ..).trans hd, List.prefix_rfl⟩
  | @serve m p s v rows' a hp hs hd' hstep =>
    by_cases hpath : path = p.opts.database
    · subst hpath
      obtain rfl := Database.rtevents.inj (hd.symm.trans hd')
      exact ⟨v.rows, Function.update_self .., hstep.rows_le⟩
    · exact ⟨rows, (Function.update_of_ne hpath ..).trans hd, List.prefix_rfl⟩

/-- Tables only grow, and a daemon keeps its options. -/
lemma rows_run (hr : Run HostStep h t u) (hn : h.databaseOf n = some path)
    (hd : h.database path = .rtevents rows) :
    u.databaseOf n = some path ∧ ∃ rows', u.database path = .rtevents rows' ∧ rows <+: rows' := by
  induction hr with
  | nil => exact ⟨hn, rows, hd, List.prefix_rfl⟩
  | snoc _ hs ih =>
    obtain ⟨hpath, rows', hrows, hle⟩ := ih
    obtain ⟨rows'', hrows', hle'⟩ := rows_step hs hrows
    exact ⟨databaseOf_step hs hpath, rows'', hrows', hle.trans hle'⟩

end Rows

section Results

variable {h₀ h h' : Host} {t t' : List HostAction} {n r : ℕ} {s : State} {q : Request}

/-- A database has one daemon for ever: the one that has created its table. What it handles is a run
of the recorder from a fresh table, and its rows stay. No daemon serves an old database. -/
theorem one_daemon_per_database (h₁ : ∀ n, h₀.process n = none) (hr : Run HostStep h₀ t h) :
    (∀ n, .createTable n ∈ t → ∃ path s, h.databaseOf n = some path ∧
      h.database path = .rtevents s.rows ∧ Run Step .fresh (served n t) s ∧
      (∀ s', h.recorder? n = some s' → s' = s) ∧
      ∀ m, m ≠ n → h.databaseOf m = some path → h.recorder? m = none ∧ served m t = []) ∧
    (∀ path rows, h₀.database path = .rtevents rows → h.database path = .rtevents rows ∧
      ∀ n, h.databaseOf n = some path → h.recorder? n = none ∧ served n t = []) ∧
    ∀ path rows, h.database path = .rtevents rows → h₀.database path = .rtevents rows ∨
      ∃ n, .createTable n ∈ t ∧ h.databaseOf n = some path := by
  have hok := host_run h₁ hr
  have hidle : ∀ n, .createTable n ∉ t → h.recorder? n = none ∧ served n t = [] := by
    intro n hn
    refine ⟨?_, hok.idle n hn⟩
    cases hrec : h.recorder? n with
    | none => rfl
    | some s => exact absurd (hok.serving n s hrec) hn
  refine ⟨?_, ?_, hok.table⟩
  · intro n hn
    obtain ⟨path, s, hp, hd, hrun, hs⟩ := hok.created n hn
    exact ⟨path, s, hp, hd, hrun, hs, fun m hne hm =>
      hidle m fun hc => hne (hok.apart m n path hc hn hm hp)⟩
  · intro path rows hrows
    obtain ⟨hd, hnone⟩ := hok.old path rows hrows
    exact ⟨hd, fun n hn => hidle n fun hc => hnone n hc hn⟩

/-- An acknowledged event stays recorded once, whatever happens to its daemon, and whichever others
are started. -/
theorem acknowledged_events_durable (h₁ : ∀ n, h₀.process n = none) (hr : Run HostStep h₀ t h)
    (hs : h.recorder? n = some s) (hq : s.request r = some q) (ha : q.stage.isAcked = true)
    (hr' : Run HostStep h t' h') :
    ∃ path rows, h'.databaseOf n = some path ∧ h'.database path = .rtevents rows ∧
      ∃ row ∈ rows, row.request = r ∧ row.description = q.description ∧
        ∀ row' ∈ rows, row'.request = r → row' = row := by
  have hok := host_run h₁ hr
  have hc := hok.serving n s hs
  obtain ⟨path, v, hp, hd, hrun, hv⟩ := hok.created n hc
  obtain rfl := hv s hs
  obtain ⟨hp', rows, hrows, hle⟩ := rows_run hr' hp hd
  have hrec : q.stage.isRecorded := by
    cases hst : q.stage <;> simp_all [Stage.isAcked, Stage.isRecorded]
  obtain ⟨row, hrow, hreq, hdescr⟩ := (tableOk_run hrun).recorded r q hq hrec
  obtain ⟨path', w, hp'', hw, hrun', -⟩ :=
    (host_run h₁ (hr.trans hr')).created n (List.mem_append_left _ hc)
  obtain rfl := Option.some.inj (hp'.symm.trans hp'')
  obtain rfl : rows = w.rows := Database.rtevents.inj (hrows.symm.trans hw)
  refine ⟨path, _, hp', hrows, row, hle.subset hrow, hreq, hdescr, fun row' hrow' hreq' => ?_⟩
  exact List.inj_on_of_nodup_map (tableOk_run hrun').once hrow' (hle.subset hrow)
    (hreq'.trans hreq.symm)

end Results

section Example

def emptyHost : Host := ⟨fun _ => none, fun _ => none, fun _ => .noTable⟩

lemma greeting_daemon : ∃ h s, Run HostStep emptyHost
    [.start 0, .createDirAll 0, .bind 0, .openDatabase 0, .createTable 0, .serve 0 (.send 0 0),
      .serve 0 (.arrive 0), .serve 0 (.lock 0), .serve 0 (.insert 0), .serve 0 (.unlock 0),
      .serve 0 (.sendAck 0)] h ∧
    h.process 0 = some ⟨⟨"events.db", "events.sock"⟩, .serving s⟩ ∧
    s.request 0 = some ⟨"Hello, PhasicJ!", .acked⟩ := by
  have hsend : Step (State.fresh.withRows []) (.send 0 0)
      (State.fresh.put 0 ⟨"Hello, PhasicJ!", .sent⟩) := .send rfl
  have hstart := @HostStep.start emptyHost 0 ⟨"events.db", "events.sock"⟩ rfl
  refine ⟨_, _, .cons hstart (.cons (.createDirAll rfl rfl) (.cons (.bind rfl rfl rfl)
    (.cons (.openDatabase rfl rfl) (.cons (.createTable rfl rfl rfl) (.cons (.serve rfl rfl rfl hsend)
    (.cons (.serve rfl rfl rfl (.arrive rfl rfl)) (.cons (.serve rfl rfl rfl (.lock rfl rfl
    ⟨rfl, rfl, rfl⟩)) (.cons (.serve rfl rfl rfl (.insert rfl rfl)) (.cons (.serve rfl rfl rfl
    (.unlock rfl rfl)) (.single (.serve rfl rfl rfl (.sendAck rfl rfl)))))))))))), rfl, rfl⟩

theorem one_daemon_per_database_greeting : ∃ t h, Run HostStep emptyHost t h ∧
    .createTable 0 ∈ t ∧ ∃ path rows, h.database path = .rtevents rows := by
  obtain ⟨h, s, hr, -⟩ := greeting_daemon
  obtain ⟨path, v, -, hd, -⟩ :=
    (one_daemon_per_database (fun _ => rfl) hr).1 0 (by simp)
  exact ⟨_, h, hr, by simp, path, _, hd⟩

theorem acknowledged_events_durable_greeting : ∃ t h rows, Run HostStep emptyHost t h ∧
    h.recorder? 0 = none ∧ h.database "events.db" = .rtevents rows ∧
    ∃ row ∈ rows, row.description = "Hello, PhasicJ!" := by
  obtain ⟨h, s, hr, hp, hq⟩ := greeting_daemon
  have hexit := HostStep.exit hp
  have hs : h.recorder? 0 = some s := by rw [Host.recorder?, hp]; rfl
  obtain ⟨path, rows, hpath, hd, row, hrow, -, hdescr, -⟩ :=
    acknowledged_events_durable (fun _ => rfl) hr hs hq rfl (.single hexit)
  obtain rfl : path = "events.db" := by
    rw [Host.move_databaseOf hp, Host.databaseOf, hp] at hpath
    exact (Option.some.inj hpath).symm
  refine ⟨_, _, rows, hr.snoc hexit, ?_, hd, row, hrow, hdescr⟩
  rw [Host.move_recorder?]
  rfl

end Example

end PhasicJ.Daemon
