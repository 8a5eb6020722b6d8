import PhasicJ.AgentJvm.ClassDumps

/-! Dumps never get in each other's way, and what the dumped files contain. -/

namespace PhasicJ.AgentJvm

open AgentConf Files InstrumenterProcess Panics Transitions

def DumpProgress.left (size : ℕ) : DumpProgress → ℕ
  | creatingDirs m => m.left + size + 2
  | writing offset => size - offset + 1
  | returned _ => 0

namespace Dump

def left (d : Dump) : ℕ := d.progress.left d.classData.length

/-- A dump makes the directory of its file, and then writes what is left of the class. -/
def Stands (d : Dump) (tree : FileTree String UInt8) : Prop :=
  match d.progress with
  | .creatingDirs m => m.Makes tree d.file.tail
  | .writing offset => offset ≤ d.classData.length
  | .returned _ => True

end Dump

structure DumpWorld.Ok (w : DumpWorld) : Prop where
  sorted : w.tree.Sorted InClasses HasDot
  stands : ∀ (k : ℕ) (d : Dump), w.dumps[k]? = some d → d.Stands w.tree

/-- The file is created while no dump is writing it. -/
def DumpWorld.Allows (file : List String) (w : DumpWorld) : DumpAction → Prop
  | .create k => ∀ d : Dump, w.dumps[k]? = some d → d.file = file →
      ∀ e ∈ w.dumps, e.file = file → ∀ offset, e.progress ≠ .writing offset
  | _ => True

structure DumpWorld.Written (file : List String) (w : DumpWorld) : Prop where
  writing : ∀ (k : ℕ) (d : Dump) (offset : ℕ), w.dumps[k]? = some d → d.file = file →
    d.progress = .writing offset → w.creator file = some k ∧
      w.tree.node file = some (.file (d.classData.take offset))
  returned : ∀ (k : ℕ) (d : Dump), w.dumps[k]? = some d → d.file = file →
    d.progress = .returned true → w.creator file = some k →
      w.tree.node file = some (.file d.classData)

section Steps

variable {w u : DumpWorld} {a : DumpAction} {d e : Dump} {k l : ℕ} {m m' : Making String}
  {tree tree' : FileTree String UInt8} {progress : DumpProgress} {t : List DumpAction}
  {creator : List String → Option ℕ} {file : List String}

lemma Dump.file_cases (d : Dump) : ∃ n p, d.file = n :: p ∧ HasDot n ∧ InClasses (n :: p) ∧
    FileTree.Enterable InClasses HasDot p :=
  dumpPath_file d.stage d.className

lemma Dump.enterable (d : Dump) : FileTree.Enterable InClasses HasDot d.file.tail := by
  obtain ⟨n, p, hf, -, -, hp⟩ := d.file_cases
  rwa [hf, List.tail_cons]

lemma Dump.Stands.mono (h : d.Stands tree)
    (hdir : ∀ p, p <:+ d.file.tail → tree.isDir p = true → tree'.isDir p = true) :
    d.Stands tree' := by
  unfold Dump.Stands at h ⊢
  split at h
  · exact h.mono hdir
  · exact h
  · trivial

lemma get_set {dumps : List Dump} (hl : (dumps.set k e)[l]? = some d) :
    (l = k ∧ d = e) ∨ (l ≠ k ∧ dumps[l]? = some d) := by
  rcases eq_or_ne l k with rfl | hne
  · rw [List.getElem?_set] at hl
    grind
  · rw [List.getElem?_set_ne hne.symm] at hl
    exact .inr ⟨hne, hl⟩

lemma DumpWorld.Ok.move (h : w.Ok) (hs : tree.Sorted InClasses HasDot)
    (hdir : ∀ p, w.tree.isDir p = true → tree.isDir p = true)
    (hd : { d with progress }.Stands tree) :
    DumpWorld.Ok { w.move k d progress with tree, creator } where
  sorted := hs
  stands l e he := by
    rcases get_set he with ⟨-, rfl⟩ | ⟨-, he⟩
    · exact hd
    · exact (h.stands l e he).mono fun p _ => hdir p

lemma DumpWorld.Ok.next (h : w.Ok) (hk : w.dumps[k]? = some d)
    (hp : d.progress = .creatingDirs m) (hm : m ≠ .made) :
    ∃ tree m', m.next w.tree = some (tree, m') ∧ tree.Sorted InClasses HasDot ∧
      m'.Makes tree d.file.tail ∧ m'.left < m.left := by
  have hd := h.stands k d hk
  rw [Dump.Stands, hp] at hd
  exact hd.next h.sorted d.enterable hm

lemma DumpWorld.Ok.creates (h : w.Ok) (hk : w.dumps[k]? = some d)
    (hp : d.progress = .creatingDirs .made) :
    ∃ n p tree, d.file = n :: p ∧ HasDot n ∧ w.tree.create n p = .ok tree := by
  have hd := h.stands k d hk
  obtain ⟨n, p, hf, hn, hin, -⟩ := d.file_cases
  rw [Dump.Stands, hp, hf] at hd
  obtain ⟨tree, ht⟩ := h.sorted.creates hin hn hd
  exact ⟨n, p, tree, hf, hn, ht⟩

/-- What a step of a dump changes, which fails only where the operating system does. -/
lemma DumpWorld.Ok.own_step (h : w.Ok) (hs : DumpStep w a u) (ha : a.dump = some k) :
    ∃ d progress, w.dumps[k]? = some d ∧ u.dumps = w.dumps.set k { d with progress } ∧
      progress.left d.classData.length < d.left ∧ (progress = .returned false → a = .fail k) ∧
      (∀ p, ¬ p <:+ d.file → u.tree.node p = w.tree.node p) ∧ u.Ok := by
  cases hs with
  | start => cases ha
  | others => cases ha
  | @mkdir _ d m m' tree hk hp hnext =>
    obtain rfl := Option.some.inj ha
    have hm : m ≠ .made := by
      rintro rfl
      cases hnext
    obtain ⟨tree', m'', hnext', hsorted, hmakes, hleft⟩ := h.next hk hp hm
    obtain ⟨rfl, rfl⟩ := Prod.mk.inj (Option.some.inj (hnext.symm.trans hnext'))
    refine ⟨d, .creatingDirs m', hk, rfl, ?_, nofun, fun p hpath => ?_, ?_⟩
    · simp only [Dump.left, hp, DumpProgress.left]
      omega
    · have hd := h.stands _ d hk
      rw [Dump.Stands, hp] at hd
      exact Making.next_other hd hnext fun hsuffix => hpath (hsuffix.trans (List.tail_suffix _))
    · refine h.move hsorted (fun p hdir => ?_) hmakes
      rw [FileTree.isDir_iff] at hdir ⊢
      exact Making.next_extends hnext p _ hdir
  | mkdirFails hk hp hm hnext =>
    obtain ⟨tree, m', hnext', -⟩ := h.next hk hp hm
    rw [hnext] at hnext'
    cases hnext'
  | @create _ d n p tree hk hp hf hc =>
    obtain rfl := Option.some.inj ha
    obtain ⟨n', p', tree', hf', hn, -⟩ := h.creates hk hp
    obtain ⟨rfl, rfl⟩ := List.cons.inj (hf.symm.trans hf')
    refine ⟨d, .writing 0, hk, rfl, ?_, nofun, fun q hq => ?_, ?_⟩
    · simp only [Dump.left, hp, DumpProgress.left]
      omega
    · refine (congrFun (FileTree.create_ok hc).2 q).trans (Function.update_of_ne ?_ _ _)
      rintro rfl
      exact hq (hf ▸ List.suffix_rfl)
    · exact h.move (h.sorted.create hn hc) (fun _ => FileTree.isDir_create hc) (Nat.zero_le _)
  | createFails hk hp hf hc =>
    obtain ⟨n, p, tree, hf', -, hc'⟩ := h.creates hk hp
    obtain ⟨rfl, rfl⟩ := List.cons.inj (hf.symm.trans hf')
    rw [hc] at hc'
    cases hc'
  | @write _ n offset d hk hp hn hle =>
    obtain rfl := Option.some.inj ha
    refine ⟨d, .writing (offset + n), hk, rfl, ?_, nofun, fun q hq => ?_, ?_⟩
    · simp only [Dump.left, hp, DumpProgress.left]
      omega
    · refine FileTree.modify_of_ne ?_
      rintro rfl
      exact hq List.suffix_rfl
    · exact h.move h.sorted.modify (fun _ => FileTree.isDir_modify) hle
  | @ret _ d hk hp =>
    obtain rfl := Option.some.inj ha
    refine ⟨d, .returned true, hk, rfl, ?_, nofun, fun _ _ => rfl, ?_⟩
    · simp [Dump.left, hp, DumpProgress.left]
    · exact h.move h.sorted (fun _ => id) trivial
  | @fail _ d hk hp =>
    obtain rfl := Option.some.inj ha
    refine ⟨d, .returned false, hk, rfl, ?_, fun _ => rfl, fun _ _ => rfl, ?_⟩
    · unfold Dump.left
      cases hd : d.progress with
      | creatingDirs m => simp [DumpProgress.left]
      | writing offset => simp [DumpProgress.left]
      | returned ok => simp [hd, DumpProgress.isReturned] at hp
    · exact h.move h.sorted (fun _ => id) trivial

lemma DumpWorld.Ok.other_step (h : w.Ok) (hs : DumpStep w a u) (ha : a.dump = none) :
    u.Ok ∧ ∃ new : List Dump, u.dumps = w.dumps ++ new ∧
      ∀ d ∈ new, d.progress.isReturned = false ∧
        d.left ≤ 2 * d.file.length + d.classData.length + 1 := by
  cases hs with
  | @start stage className classData =>
    have hnew : (Dump.start stage className classData).Stands w.tree :=
      ⟨rfl, fun h => absurd h Bool.false_ne_true⟩
    refine ⟨⟨h.sorted, fun k d hd => ?_⟩, [.start stage className classData], rfl, ?_⟩
    · rcases List.mem_append.mp (List.mem_of_getElem? hd) with hin | hin
      · obtain ⟨l, hl⟩ := List.mem_iff_getElem?.mp hin
        exact h.stands l d hl
      · rwa [List.mem_singleton.mp hin]
    · intro d hd
      obtain rfl := List.mem_singleton.mp hd
      obtain ⟨n, p, hf, -⟩ := (Dump.start stage className classData).file_cases
      refine ⟨rfl, ?_⟩
      have htail : (dumpPath stage.dir className.text).names.tail.length = p.length := by
        change (Dump.start stage className classData).file.tail.length = p.length
        rw [hf, List.tail_cons]
      rw [hf]
      simp only [Dump.left, Dump.start, DumpProgress.left, Making.left, htail, List.length_cons,
        Bool.false_eq_true, if_false, List.length_nil]
      omega
  | @others tree hsame =>
    refine ⟨⟨fun n p x hin hx => ?_, fun k d hk => ?_⟩, [], (List.append_nil _).symm,
      List.forall_mem_nil _⟩
    · rw [hsame _ hin] at hx
      exact h.sorted n p x hin hx
    · refine (h.stands k d hk).mono fun p hp hdir => ?_
      cases p with
      | nil => exact FileTree.isDir_iff.mpr tree.root
      | cons n p =>
        rw [FileTree.isDir_iff] at hdir ⊢
        rw [hsame _ (d.enterable n p hp).1, hdir]
  | mkdir => cases ha
  | mkdirFails => cases ha
  | create => cases ha
  | createFails => cases ha
  | write => cases ha
  | ret => cases ha
  | fail => cases ha

lemma DumpWorld.Ok.step (h : w.Ok) (hs : DumpStep w a u) : u.Ok := by
  cases ha : a.dump with
  | none => exact (h.other_step hs ha).1
  | some k =>
    obtain ⟨d, progress, -, -, -, -, -, hu⟩ := h.own_step hs ha
    exact hu

lemma initial_ok (ht : tree.Sorted InClasses HasDot) : (DumpWorld.initial tree).Ok := ⟨ht, nofun⟩

lemma DumpWorld.Ok.run (h : w.Ok) (hr : Run DumpStep w t u) : u.Ok :=
  hr.invariant DumpWorld.Ok (fun _ _ _ hu hs => hu.step hs) h

lemma DumpWorld.Ok.goes_on (h : w.Ok) (hk : w.dumps[k]? = some d)
    (hd : d.progress.isReturned = false) :
    ∃ a u, a.dump = some k ∧ a ≠ .fail k ∧ DumpStep w a u := by
  cases hp : d.progress with
  | creatingDirs m =>
    by_cases hm : m = .made
    · subst hm
      obtain ⟨n, p, tree, hf, -, hc⟩ := h.creates hk hp
      exact ⟨.create k, _, rfl, nofun, .create hk hp hf hc⟩
    · obtain ⟨tree, m', hnext, -⟩ := h.next hk hp hm
      exact ⟨.mkdir k, _, rfl, nofun, .mkdir hk hp hnext⟩
  | writing offset =>
    have hle := h.stands k d hk
    rw [Dump.Stands, hp] at hle
    rcases Nat.lt_or_eq_of_le hle with hlt | rfl
    · exact ⟨.write k (d.classData.length - offset), _, rfl, nofun,
        .write hk hp (by omega) (by omega)⟩
    · exact ⟨.ret k, _, rfl, nofun, .ret hk hp⟩
  | returned ok => simp [hp, DumpProgress.isReturned] at hd

def stepsOf (k : ℕ) (t : List DumpAction) : List DumpAction := t.filter fun a => a.dump = some k

/-- The steps that a dump has made and those that are left, and why it has failed if it has. -/
structure Accounts (t : List DumpAction) (w : DumpWorld) : Prop where
  ok : w.Ok
  started : ∀ k, w.dumps.length ≤ k → stepsOf k t = []
  left : ∀ (k : ℕ) (d : Dump), w.dumps[k]? = some d →
    (stepsOf k t).length + d.left ≤ 2 * d.file.length + d.classData.length + 1
  failed : ∀ (k : ℕ) (d : Dump), w.dumps[k]? = some d → d.progress = .returned false → .fail k ∈ t

lemma stepsOf_snoc : stepsOf k (t ++ [a]) = stepsOf k t ++ if a.dump = some k then [a] else [] := by
  rw [stepsOf, List.filter_append, List.filter_singleton]
  split <;> simp_all [stepsOf]

lemma Accounts.step (h : Accounts t w) (hs : DumpStep w a u) : Accounts (t ++ [a]) u := by
  cases ha : a.dump with
  | none =>
    obtain ⟨hu, new, hnew, hfresh⟩ := h.ok.other_step hs ha
    have hsteps : ∀ k, stepsOf k (t ++ [a]) = stepsOf k t := by
      intro k
      rw [stepsOf_snoc, ha, if_neg nofun, List.append_nil]
    refine ⟨hu, fun k hk => ?_, fun k d hd => ?_, fun k d hd hp => ?_⟩
    · rw [hsteps]
      rw [hnew, List.length_append] at hk
      exact h.started k (by omega)
    · rw [hsteps]
      rw [hnew, List.getElem?_append] at hd
      split at hd
      · exact h.left k d hd
      · rw [h.started k (by omega)]
        simpa using (hfresh d (List.mem_of_getElem? hd)).2
    · rw [hnew, List.getElem?_append] at hd
      split at hd
      · exact List.mem_append_left _ (h.failed k d hd hp)
      · have := (hfresh d (List.mem_of_getElem? hd)).1
        simp [hp, DumpProgress.isReturned] at this
  | some k =>
    obtain ⟨d, progress, hk, hdumps, hleft, hfail, -, hu⟩ := h.ok.own_step hs ha
    refine ⟨hu, fun l hl => ?_, fun l e he => ?_, fun l e he hp => ?_⟩
    · rw [hdumps, List.length_set] at hl
      have hlt := (List.getElem?_eq_some_iff.mp hk).1
      rw [stepsOf_snoc, if_neg (by rw [ha]; simp; omega), h.started l hl, List.append_nil]
    · rw [hdumps] at he
      rw [stepsOf_snoc]
      rcases get_set he with ⟨rfl, rfl⟩ | ⟨hne, he⟩
      · have hold := h.left l d hk
        rw [if_pos ha, List.length_append, List.length_singleton]
        change _ + progress.left d.classData.length ≤ 2 * d.file.length + d.classData.length + 1
        omega
      · rw [if_neg (by rw [ha]; simpa using hne.symm), List.append_nil]
        exact h.left l e he
    · rw [hdumps] at he
      rcases get_set he with ⟨rfl, rfl⟩ | ⟨-, he⟩
      · exact List.mem_append_right _ (List.mem_singleton.mpr (hfail hp).symm)
      · exact List.mem_append_left _ (h.failed l e he hp)

lemma accounts_run (ht : tree.Sorted InClasses HasDot) (h : Run DumpStep (.initial tree) t w) :
    Accounts t w :=
  h.trace_invariant Accounts (fun _ _ _ _ hu hs => hu.step hs)
    ⟨initial_ok ht, fun _ _ => rfl, nofun, nofun⟩

lemma sum_set_lt {dumps : List Dump} (hk : dumps[k]? = some d) (hlt : e.left < d.left) :
    ((dumps.set k e).map Dump.left).sum < (dumps.map Dump.left).sum := by
  induction dumps generalizing k with
  | nil => cases hk
  | cons c dumps ih =>
    cases k with
    | zero =>
      obtain rfl := Option.some.inj hk
      simpa using hlt
    | succ k => simpa using ih hk

lemma DumpWorld.Ok.all_return (h : w.Ok) :
    ∃ t u, Run DumpStep w t u ∧ (∀ a ∈ t, ∃ k, a.dump = some k ∧ a ≠ .fail k) ∧
      ∀ d ∈ u.dumps, d.progress.isReturned = true := by
  have hgo : ∀ v : DumpWorld, v.Ok → ¬ (∀ d ∈ v.dumps, d.progress.isReturned = true) →
      ∃ (a : DumpAction) (u : DumpWorld), (∃ k, a.dump = some k ∧ a ≠ .fail k) ∧ DumpStep v a u ∧
        u.Ok ∧ (u.dumps.map Dump.left).sum < (v.dumps.map Dump.left).sum := by
    intro v hv hgoal
    push Not at hgoal
    obtain ⟨d, hd, hp⟩ := hgoal
    obtain ⟨k, hk⟩ := List.mem_iff_getElem?.mp hd
    obtain ⟨a, u, ha, hfail, hs⟩ := hv.goes_on hk (by simpa using hp)
    obtain ⟨d', progress, hk', hdumps, hleft, -, -, hu⟩ := hv.own_step hs ha
    refine ⟨a, u, ⟨k, ha, hfail⟩, hs, hu, ?_⟩
    rw [hdumps]
    exact sum_set_lt hk' hleft
  obtain ⟨t, u, hr, ht, -, hu⟩ :=
    Run.until_goal (fun v : DumpWorld => (v.dumps.map Dump.left).sum) hgo h
  exact ⟨t, u, hr, ht, hu⟩

/-- Where `classes` holds nothing alien at first (its files are those whose names have a dot), a dump
fails only if the operating system reports an error of its own, whatever else is dumped at the same
time: no file of a dump is where another one needs a directory. -/
theorem dumps_never_conflict (ht : tree.Sorted InClasses HasDot)
    (h : Run DumpStep (.initial tree) t w) :
    (∀ (k : ℕ) (d : Dump), w.dumps[k]? = some d →
      (d.progress = .returned false → .fail k ∈ t) ∧
      (stepsOf k t).length ≤ 2 * d.file.length + d.classData.length + 1 ∧
      (d.path.absolute = false ∧ InClasses d.file) ∧
      ∀ e ∈ w.dumps, e.path = d.path → e.stage = d.stage ∧ e.className.text = d.className.text) ∧
    (∀ a u k (d : Dump), DumpStep w a u → a.dump = some k → w.dumps[k]? = some d →
      ∀ p, ¬ p <:+ d.file → u.tree.node p = w.tree.node p) ∧
    ∃ t' u, Run DumpStep w t' u ∧ (∀ a ∈ t', ∃ k, a.dump = some k ∧ a ≠ .fail k) ∧
      ∀ d ∈ u.dumps, d.progress.isReturned = true := by
  have hacc := accounts_run ht h
  refine ⟨fun k d hk => ⟨hacc.failed k d hk, ?_, ⟨?_, ?_⟩, fun e _ he => dumpPath_injective he⟩,
    fun a u k d hs ha hk => ?_, hacc.ok.all_return⟩
  · have hleft := hacc.left k d hk
    omega
  · rw [Dump.path, dumpPath_eq]
  · obtain ⟨n, p, hf, -, hin, -⟩ := d.file_cases
    rwa [hf]
  · obtain ⟨d', progress, hk', -, -, -, hframe, -⟩ := hacc.ok.own_step hs ha
    obtain rfl := Option.some.inj (hk.symm.trans hk')
    exact hframe

lemma Dump.inClasses (d : Dump) : InClasses d.file := by
  obtain ⟨n, p, hf, -, hin, -⟩ := d.file_cases
  rwa [hf]

lemma DumpWorld.Written.move (h : w.Written file)
    (hfile : (d.file = file ∧ creator file = some k ∧
        ∀ l e, l ≠ k → w.dumps[l]? = some e → e.file = file →
          ∀ offset, e.progress ≠ .writing offset) ∨
      (creator file = w.creator file ∧
        ∀ c, w.tree.node file = some (.file c) → tree.node file = some (.file c)))
    (hwriting : ∀ offset, d.file = file → progress = .writing offset → creator file = some k ∧
      tree.node file = some (.file (d.classData.take offset)))
    (hreturned : d.file = file → progress = .returned true → creator file = some k →
      tree.node file = some (.file d.classData)) :
    DumpWorld.Written file { w.move k d progress with tree, creator } where
  writing l e offset he hf hp := by
    rcases get_set he with ⟨rfl, rfl⟩ | ⟨hne, he⟩
    · exact hwriting offset hf hp
    · obtain ⟨hc, hn⟩ := h.writing l e offset he hf hp
      rcases hfile with ⟨-, -, hnone⟩ | ⟨hsame, hkeep⟩
      · exact absurd hp (hnone l e hne he hf offset)
      · exact ⟨hsame.trans hc, hkeep _ hn⟩
  returned l e he hf hp hc := by
    rcases get_set he with ⟨rfl, rfl⟩ | ⟨hne, he⟩
    · exact hreturned hf hp hc
    · rcases hfile with ⟨-, howner, -⟩ | ⟨hsame, hkeep⟩
      · exact absurd (Option.some.inj (hc.symm.trans howner)) hne
      · exact hkeep _ (h.returned l e he hf hp (hsame.symm.trans hc))

lemma DumpWorld.Written.keep (h : w.Written file) (hext : w.tree.Extends tree)
    (hwriting : ∀ offset, progress ≠ .writing offset)
    (hreturned : d.file = file → progress = .returned true → w.creator file = some k →
      tree.node file = some (.file d.classData)) :
    DumpWorld.Written file { w.move k d progress with tree } :=
  h.move (.inr ⟨rfl, fun _ => hext _ _⟩) (fun offset _ hp => absurd hp (hwriting offset)) hreturned

lemma DumpWorld.Written.create (h : w.Written file) {n : String} {p : List String}
    (hk : w.dumps[k]? = some d) (hf : d.file = n :: p) (hc : w.tree.create n p = .ok tree)
    (ha : w.Allows file (.create k)) :
    DumpWorld.Written file
      { w.move k d (.writing 0) with
        tree
        creator := Function.update w.creator d.file (some k) } := by
  have hnode := (FileTree.create_ok hc).2
  refine h.move ?_ (fun offset hd ho => ?_) nofun
  · rcases eq_or_ne d.file file with rfl | hd
    · exact .inl ⟨rfl, Function.update_self .., fun l e _ he => ha d hk rfl e
        (List.mem_of_getElem? he)⟩
    · refine .inr ⟨Function.update_of_ne hd.symm _ _, fun c hx => ?_⟩
      rw [hnode, ← hf, Function.update_of_ne hd.symm, hx]
  · subst hd
    obtain rfl : 0 = offset := by simpa using ho
    refine ⟨Function.update_self .., ?_⟩
    rw [hnode, hf, Function.update_self, List.take_zero]

lemma DumpWorld.Written.write (h : w.Written file) {n offset : ℕ} (hk : w.dumps[k]? = some d)
    (hp : d.progress = .writing offset) (hle : offset + n ≤ d.classData.length) :
    DumpWorld.Written file
      { w.move k d (.writing (offset + n)) with
        tree := w.tree.modify d.file fun file =>
          writeAt 0 file offset (part d.classData offset n) } := by
  refine h.move ?_ (fun off hd hoff => ?_) nofun
  · rcases eq_or_ne d.file file with rfl | hd
    · obtain ⟨hc, -⟩ := h.writing k d offset hk rfl hp
      refine .inl ⟨rfl, hc, fun l e hne he hf off hoff => hne ?_⟩
      exact Option.some.inj ((h.writing l e off he hf hoff).1.symm.trans hc)
    · exact .inr ⟨rfl, fun c hx => (FileTree.modify_of_ne hd.symm).trans hx⟩
  · subst hd
    obtain ⟨hc, hnode⟩ := h.writing k d offset hk rfl hp
    obtain rfl : offset + n = off := by simpa using hoff
    refine ⟨hc, ?_⟩
    rw [FileTree.modify_file hnode, writeAt_take hle]

lemma DumpWorld.Written.step (h : w.Written file) (hs : DumpStep w a u) (ha : w.Allows file a) :
    u.Written file := by
  have hsame : w.tree.Extends w.tree := fun _ _ hx => hx
  cases hs with
  | start =>
    refine ⟨fun k d offset hk hf hp => ?_, fun k d hk hf hp hc => ?_⟩
    all_goals
      rw [List.getElem?_append] at hk
      split at hk
    · exact h.writing k d offset hk hf hp
    · obtain rfl := List.mem_singleton.mp (List.mem_of_getElem? hk)
      cases hp
    · exact h.returned k d hk hf hp hc
    · obtain rfl := List.mem_singleton.mp (List.mem_of_getElem? hk)
      cases hp
  | mkdir hk hp hnext => exact h.keep (Making.next_extends hnext) nofun nofun
  | mkdirFails hk hp hm hnext => exact h.keep hsame nofun nofun
  | create hk hp hf hc => exact h.create hk hf hc ha
  | createFails hk hp hf hc => exact h.keep hsame nofun nofun
  | write hk hp hn hle => exact h.write hk hp hle
  | @ret k d hk hp =>
    refine h.keep hsame nofun fun hf _ _ => ?_
    have hnode := (h.writing k d _ hk hf hp).2
    rwa [List.take_length] at hnode
  | fail hk hp => exact h.keep hsame nofun nofun
  | others hothers =>
    refine ⟨fun k d offset hk hf hp => ?_, fun k d hk hf hp hc => ?_⟩
    · obtain ⟨hc, hn⟩ := h.writing k d offset hk hf hp
      exact ⟨hc, (hothers _ (hf ▸ d.inClasses)).trans hn⟩
    · exact (hothers _ (hf ▸ d.inClasses)).trans (h.returned k d hk hf hp hc)

/-- As long as a file is not created while a dump is writing it, it holds the whole class of the
dump that created it last once that dump has succeeded. -/
theorem dumped_files_whole
    (h : Run (fun w a u => DumpStep w a u ∧ w.Allows file a) (.initial tree) t w)
    (hk : w.dumps[k]? = some d) (hf : d.file = file) (hd : d.progress = .returned true)
    (hc : w.creator file = some k) : w.tree.node file = some (.file d.classData) := by
  have hwritten := h.invariant (DumpWorld.Written file) (fun _ _ _ hu hs => hu.step hs.1 hs.2)
    ⟨nofun, nofun⟩
  exact hwritten.returned k d hk hf hd hc

end Steps

section Hook

variable {A : Allocator} {args : HookArgs} {env : JvmtiEnv} {storage ptr : Addr}
  {conf : PjAgentConf} {cls : Bytes} {name : ClassName} {w : DumpWorld} {t : List DumpAction}
  {tree : FileTree String UInt8} {k l : ℕ}

lemma succeeded_of_accounts (h : Accounts t w) {d : Dump} (hk : w.dumps[k]? = some d)
    (hd : d.progress.isReturned = true) (hfail : .fail k ∉ t) : w.succeeded k = true := by
  rw [DumpWorld.succeeded, hk, Option.map_some]
  cases hp : d.progress with
  | returned ok =>
    cases ok with
    | true => rfl
    | false => exact absurd (h.failed k d hk hp) hfail
  | creatingDirs m => simp [hp, DumpProgress.isReturned] at hd
  | writing offset => simp [hp, DumpProgress.isReturned] at hd

/-- A hook that has dumped its class returns exactly when it would without the dumps. -/
lemma dumping_hook_returns (instrument : Option String → Bytes → Option Bytes)
    (ht : tree.Sorted InClasses HasDot) (h : Run DumpStep (.initial tree) t w)
    (hdumps : ∀ i ∈ [k, l], (∃ d, w.dumps[i]? = some d ∧ d.progress.isReturned = true) ∧
      .fail i ∉ t)
    (hs : Stores env storage ptr conf) (hargs : args.Passed env cls)
    (hname : args.name = some (asBytes name.text)) :
    (∃ u, (pjClassFileLoadHook A (w.answers k l instrument) args).run env = .returned () u) ↔
      startsWith name.text "phasicj/agent/rt/" = true ∨
        ∀ out, instrument conf.phasicjExec cls = some out → HandsOver A env out := by
  have hacc := accounts_run ht h
  have hok : ∀ i ∈ [k, l], w.succeeded i = true := by
    intro i hi
    obtain ⟨⟨d, hd, hp⟩, hfail⟩ := hdumps i hi
    exact succeeded_of_accounts hacc hd hp hfail
  have hrun : (pjClassFileLoadHook A (w.answers k l instrument) args).run env =
      (hookWithConf A (w.answers k l instrument) args conf).run env := by
    rw [pjClassFileLoadHook, Action.bind_returned (of_stores hs)]
  rw [hrun, hookWithConf_returns hargs, hname]
  simp [fromUtf8_asBytes, HookSucceeds, DumpWorld.answers, hok]

end Hook

section Example

def emptyTree : FileTree String UInt8 where
  node
    | [] => some .dir
    | _ :: _ => none
  root := rfl
  parent _ _ h := absurd rfl h

lemma emptyTree_sorted : emptyTree.Sorted InClasses HasDot := nofun

def className : ClassName := ⟨"p", by decide⟩

def packagedName : ClassName := ⟨"p/A", by decide⟩

theorem dumps_never_conflict_package :
    ∃ w t u, Run DumpStep (.initial emptyTree) [.start, .start] w ∧
      w.dumps.map (fun d => d.className.text) = ["p", "p/A"] ∧ Run DumpStep w t u ∧
      ∀ d ∈ u.dumps, d.progress.isReturned = true := by
  have h : Run DumpStep (.initial emptyTree) [.start, .start] ⟨emptyTree,
      [.start .beforeInstr className [0xCA], .start .beforeInstr packagedName [0xFE]],
      fun _ => none⟩ := .snoc (.single .start) .start
  obtain ⟨-, -, t, u, hr, -, hu⟩ := dumps_never_conflict emptyTree_sorted h
  exact ⟨_, t, u, h, rfl, hr, hu⟩

def classFile : List String := ["p.class", "before_instr", "classes"]

def firstDump : Dump := .start .beforeInstr className [0xCA, 0xFE]

def secondDump : Dump := .start .afterInstr className [0xBE]

lemma firstDump_file : firstDump.file = classFile := by decide

lemma secondDump_file : secondDump.file = ["p.class", "after_instr", "classes"] := by decide

/-- The dumps of one class before and after its instrumentation take turns. -/
lemma class_dumped : ∃ w t, ∃ d e : Dump,
    Run (fun w a u => DumpStep w a u ∧ w.Allows classFile a) (.initial emptyTree) t w ∧
      w.dumps = [d, e] ∧ d.classData = [0xCA, 0xFE] ∧ d.file = classFile ∧
      d.progress = .returned true ∧ w.creator classFile = some 0 ∧ e.progress = .returned true := by
  have h : Run (fun w a u => DumpStep w a u ∧ w.Allows classFile a) (.initial emptyTree)
      [.start, .start] ⟨emptyTree, [firstDump, secondDump], fun _ => none⟩ :=
    .snoc (.single ⟨.start, trivial⟩) ⟨.start, trivial⟩
  have h₀ : firstDump.progress = .creatingDirs (.mkdir ["before_instr", "classes"] false []) :=
    congrArg (fun p : List String => DumpProgress.creatingDirs (.mkdir p.tail false []))
      firstDump_file
  have h₁ : secondDump.progress = .creatingDirs (.mkdir ["after_instr", "classes"] false []) :=
    congrArg (fun p : List String => DumpProgress.creatingDirs (.mkdir p.tail false []))
      secondDump_file
  have h := (h.snoc ⟨.mkdir (k := 0) rfl h₀ rfl, trivial⟩).snoc ⟨.mkdir (k := 1) rfl h₁ rfl, trivial⟩
  have h := (h.snoc ⟨.mkdir (k := 0) rfl rfl rfl, trivial⟩).snoc
    ⟨.mkdir (k := 1) rfl rfl rfl, trivial⟩
  have h := h.snoc ⟨.mkdir (k := 0) rfl rfl rfl, trivial⟩
  have h := h.snoc ⟨.create (k := 0) rfl rfl firstDump_file rfl, fun _ _ _ =>
    List.forall_mem_cons.mpr ⟨nofun, List.forall_mem_singleton.mpr nofun⟩⟩
  have h := (h.snoc ⟨.mkdir (k := 1) rfl rfl rfl, trivial⟩).snoc
    ⟨.write (k := 0) rfl rfl (by decide : 0 < 1) (by decide), trivial⟩
  have h := h.snoc ⟨.create (k := 1) rfl rfl secondDump_file rfl, fun d hd hf =>
    absurd (secondDump_file.symm.trans ((congrArg Dump.file (Option.some.inj hd)).trans hf))
      (by decide)⟩
  have h := (h.snoc ⟨.write (k := 1) rfl rfl (by decide : 0 < 1) (by decide), trivial⟩).snoc
    ⟨.write (k := 0) rfl rfl (by decide : 0 < 1) (by decide), trivial⟩
  have h := (h.snoc ⟨.ret (k := 1) rfl rfl, trivial⟩).snoc ⟨.ret (k := 0) rfl rfl, trivial⟩
  exact ⟨_, _, _, _, h, rfl, rfl, firstDump_file, rfl, rfl, rfl⟩

theorem dumped_files_whole_class : ∃ w t, ∃ d e : Dump,
    Run (fun w a u => DumpStep w a u ∧ w.Allows classFile a) (.initial emptyTree) t w ∧
      w.dumps = [d, e] ∧ e.progress = .returned true ∧
      w.tree.node classFile = some (.file [0xCA, 0xFE]) := by
  obtain ⟨w, t, d, e, h, hdumps, hdata, hf, hd, hc, he⟩ := class_dumped
  have hk : w.dumps[0]? = some d := by rw [hdumps]; rfl
  exact ⟨w, t, d, e, h, hdumps, he, hdata ▸ dumped_files_whole h hk hf hd hc⟩

end Example

end PhasicJ.AgentJvm
