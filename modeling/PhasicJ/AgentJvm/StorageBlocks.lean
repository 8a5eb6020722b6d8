import PhasicJ.AgentJvm.StorageRuns

/-! The blocks that the environment-local storage allocates, and the ones it can still reach. -/

namespace PhasicJ.AgentJvm

open Panics AgentConf InstrumenterProcess Transitions

def PathStored (A : Allocator) (env : JvmtiEnv) (c : PjAgentConf) (storage : Addr) : Prop :=
  storage % RawEnvStorage.align = 0 ∧
    ∀ s, c.phasicjExec = some s → s ≠ "" ∧
      ∃ ptr, A.allocate (env.set storage (some (.uninit RawEnvStorage.size))).memory
        (asBytes s).length = .ok ptr

section Init

variable {A : Allocator} {env : JvmtiEnv} {c : PjAgentConf} {storage : Addr}

lemma allocateBytes_ok {size : ℕ} {a : Addr} (hs : 0 < size)
    (h : A.allocate env.memory size = .ok a) :
    (allocateBytes A size).run env = .returned a (env.set a (some (.uninit size))) := by
  rcases allocateBytes_cases A env hs with ⟨a', -, -, ha, hr⟩ | ⟨message, -, hr⟩
  · obtain rfl : a = a' := Except.ok.inj (h.symm.trans ha)
    exact hr
  · rw [allocateBytes] at hr
    simp [Action.require, hs.ne', Jvmti.allocate, h, Action.run_bind] at hr

lemma allocateBytes_error {size code : ℕ} (hs : 0 < size)
    (h : A.allocate env.memory size = .error code) :
    (allocateBytes A size).run env = .panicked (jvmtiError code) env := by
  rw [allocateBytes]
  simp [Action.require, hs.ne', Jvmti.allocate, h, Action.run_bind]

lemma asBytes_length_pos {s : String} (hs : s ≠ "") : 0 < (asBytes s).length :=
  List.length_pos_of_ne_nil fun h => hs (asBytes_eq_nil h)

lemma init_refused {code : ℕ} (h : env.localStorage = nullPtr)
    (ha : A.allocate env.memory RawEnvStorage.size = .error code) :
    (EnvStorage.init A c).run env = .panicked (jvmtiError code) env := by
  have hr : (RawEnvStorage.allocate A).run env = .panicked (jvmtiError code) env := by
    rw [RawEnvStorage.allocate, Action.bind_panicked (allocateBytes_error (by decide) ha)]
  rw [EnvStorage.init, Action.bind_returned (of_null h)]
  simp only [Option.isSome_none, Bool.false_eq_true, if_false]
  rw [Action.bind_panicked hr]

lemma init_granted (h : env.localStorage = nullPtr)
    (ha : A.allocate env.memory RawEnvStorage.size = .ok storage)
    (halign : storage % RawEnvStorage.align = 0) :
    (EnvStorage.init A c).run env = (do
      let raw ← RawEnvStorage.fromConf A c
      Jvmti.writeStorage storage raw
      Jvmti.setEnvironmentLocalStorage storage : Jvmti Unit).run
        (env.set storage (some (.uninit RawEnvStorage.size))) := by
  have hr : (RawEnvStorage.allocate A).run env =
      .returned storage (env.set storage (some (.uninit RawEnvStorage.size))) := by
    rw [RawEnvStorage.allocate, Action.bind_returned (allocateBytes_ok (by decide) ha),
      if_pos halign, Action.run_pure]
  rw [EnvStorage.init, Action.bind_returned (of_null h)]
  simp only [Option.isSome_none, Bool.false_eq_true, if_false]
  rw [Action.bind_returned hr]

lemma init_leaks (h : env.localStorage = nullPtr)
    (ha : A.allocate env.memory RawEnvStorage.size = .ok storage)
    (hp : ¬ PathStored A env c storage) :
    ∃ message, (EnvStorage.init A c).run env =
      .panicked message (env.set storage (some (.uninit RawEnvStorage.size))) := by
  by_cases halign : storage % RawEnvStorage.align = 0
  · rw [init_granted h ha halign]
    obtain ⟨s, hs, hn⟩ : ∃ s, c.phasicjExec = some s ∧ ¬ (s ≠ "" ∧
        ∃ ptr, A.allocate (env.set storage (some (.uninit RawEnvStorage.size))).memory
          (asBytes s).length = .ok ptr) := by
      by_contra hall
      push Not at hall
      exact hp ⟨halign, hall⟩
    have hf : ∃ message, (RawEnvStorage.fromConf A c).run
        (env.set storage (some (.uninit RawEnvStorage.size))) =
        .panicked message (env.set storage (some (.uninit RawEnvStorage.size))) := by
      rw [RawEnvStorage.fromConf, hs]
      simp only
      by_cases he : s = ""
      · refine ⟨zeroSized, Action.bind_panicked ?_ _⟩
        rw [allocateBytes, he]
        rfl
      · cases hq : A.allocate (env.set storage (some (.uninit RawEnvStorage.size))).memory
            (asBytes s).length with
        | ok ptr => exact absurd ⟨he, ptr, hq⟩ hn
        | error code =>
          exact ⟨jvmtiError code,
            Action.bind_panicked (allocateBytes_error (asBytes_length_pos he) hq) _⟩
    obtain ⟨message, hf⟩ := hf
    exact ⟨message, Action.bind_panicked hf _⟩
  · have hr : (RawEnvStorage.allocate A).run env =
        .panicked misaligned (env.set storage (some (.uninit RawEnvStorage.size))) := by
      rw [RawEnvStorage.allocate, Action.bind_returned (allocateBytes_ok (by decide) ha),
        if_neg halign, Action.run_panic]
    refine ⟨misaligned, ?_⟩
    rw [EnvStorage.init, Action.bind_returned (of_null h)]
    simp only [Option.isSome_none, Bool.false_eq_true, if_false]
    rw [Action.bind_panicked hr]

lemma run_store {raw : RawEnvStorage} (hn : storage ≠ nullPtr)
    (hm : env.memory storage = some (.uninit RawEnvStorage.size)) :
    (do
      Jvmti.writeStorage storage raw
      Jvmti.setEnvironmentLocalStorage storage : Jvmti Unit).run env =
      .returned () { env.set storage (some (.rawEnvStorage raw)) with localStorage := storage } := by
  have hw : (Jvmti.writeStorage storage raw).run env =
      .returned () (env.set storage (some (.rawEnvStorage raw))) := by
    simp [Jvmti.writeStorage, JvmtiEnv.block?_eq_some.mpr ⟨hn, hm⟩]
  rw [Action.bind_returned hw]
  rfl

lemma fromConf_path {s : String} {ptr : Addr} (hc : c.phasicjExec = some s) (hs : s ≠ "")
    (ha : A.allocate env.memory (asBytes s).length = .ok ptr) :
    (RawEnvStorage.fromConf A c).run env = .returned (.ofConf c ptr (asBytes s).length)
      (env.set ptr (some (.bytes (asBytes s)))) := by
  have hpos := asBytes_length_pos hs
  obtain ⟨hn, -⟩ := A.fresh _ _ _ hpos ha
  have hcopy : (Jvmti.copyNonoverlapping (asBytes s) ptr).run
      (env.set ptr (some (.uninit (asBytes s).length))) =
      .returned () (env.set ptr (some (.bytes (asBytes s)))) := by
    simp [Jvmti.copyNonoverlapping, JvmtiEnv.block?, hn, JvmtiEnv.set]
  rw [RawEnvStorage.fromConf, hc]
  simp only
  rw [Action.bind_returned (allocateBytes_ok hpos ha), Action.bind_returned hcopy, Action.run_pure]

lemma init_completes (h : env.localStorage = nullPtr)
    (ha : A.allocate env.memory RawEnvStorage.size = .ok storage)
    (hp : PathStored A env c storage) :
    ∃ env' ptr, (EnvStorage.init A c).run env = .returned () env' ∧ Stores env' storage ptr c ∧
      (ptr ≠ nullPtr → env.memory ptr = none) ∧
      ∀ a, a ≠ storage → a ≠ ptr ∨ ptr = nullPtr → env'.memory a = env.memory a := by
  obtain ⟨hn, -⟩ := A.fresh _ _ _ (by decide) ha
  rw [init_granted h ha hp.1]
  cases hc : c.phasicjExec with
  | none =>
    have hf : (RawEnvStorage.fromConf A c).run
        (env.set storage (some (.uninit RawEnvStorage.size))) =
        .returned (.ofConf c nullPtr 0)
          (env.set storage (some (.uninit RawEnvStorage.size))) := by
      rw [RawEnvStorage.fromConf, hc, Action.run_pure]
    rw [Action.bind_returned hf, run_store hn (JvmtiEnv.set_same ..)]
    refine ⟨_, nullPtr, rfl, ⟨rfl, hn, 0, JvmtiEnv.set_same .., by rw [hc]; rfl⟩,
      fun hne => absurd rfl hne, ?_⟩
    intro a hne _
    exact (JvmtiEnv.set_other hne ..).trans (JvmtiEnv.set_other hne ..)
  | some s =>
    obtain ⟨hs, ptr, hptr⟩ := hp.2 s hc
    obtain ⟨hnp, hfp⟩ := A.fresh _ _ _ (asBytes_length_pos hs) hptr
    have hne : ptr ≠ storage := by
      rintro rfl
      simp at hfp
    have hm : ((env.set storage (some (.uninit RawEnvStorage.size))).set ptr
        (some (.bytes (asBytes s)))).memory storage = some (.uninit RawEnvStorage.size) := by
      rw [JvmtiEnv.set_other hne.symm, JvmtiEnv.set_same]
    rw [Action.bind_returned (fromConf_path hc hs hptr), run_store hn hm]
    refine ⟨_, ptr, rfl, ⟨rfl, hn, (asBytes s).length, JvmtiEnv.set_same .., ?_⟩, ?_, ?_⟩
    · rw [hc]
      exact ⟨hnp, (JvmtiEnv.set_other hne ..).trans (JvmtiEnv.set_same ..), rfl⟩
    · intro _
      rwa [JvmtiEnv.set_other hne] at hfp
    · intro a ha' hap
      have hap : a ≠ ptr := hap.resolve_right hnp
      exact (JvmtiEnv.set_other ha' ..).trans
        ((JvmtiEnv.set_other hap ..).trans (JvmtiEnv.set_other ha' ..))

end Init

/-- The live blocks that the storage has allocated. -/
def World.own (w : World) : Set Addr := {a | a ∉ w.others ∧ ∃ b, w.env.memory a = some b}

def World.reachable (w : World) : Set Addr :=
  {a | w.env.localStorage ≠ nullPtr ∧ (a = w.env.localStorage ∨
    ∃ raw : RawEnvStorage, w.env.memory w.env.localStorage = some (.rawEnvStorage raw) ∧
      raw.phasicjExecPtr ≠ nullPtr ∧ a = raw.phasicjExecPtr)}

inductive Call where
  | init (A : Allocator) (conf : PjAgentConf)
  | of
  | free
  | others

inductive CallStep : World → Call → World → Prop
  | init {w : World} {A : Allocator} {c : PjAgentConf} {env' : JvmtiEnv} :
      ((EnvStorage.init A c).run w.env).state? = some env' →
      CallStep w (.init A c) { w with env := env' }
  | of {w : World} {env' : JvmtiEnv} :
      (EnvStorage.of.run w.env).state? = some env' → CallStep w .of { w with env := env' }
  | free {w : World} {env' : JvmtiEnv} :
      (EnvStorage.free.run w.env).state? = some env' → CallStep w .free { w with env := env' }
  | others {w v : World} : OthersStep w v → CallStep w .others v

/-- The call makes no block unreachable: it frees nothing, and an `init` on an empty storage that is
granted its first block is also granted what it needs after that. -/
def Call.Keeps (w : World) : Call → Prop
  | .init A c => w.env.localStorage = nullPtr → ∀ storage,
    A.allocate w.env.memory RawEnvStorage.size = .ok storage → PathStored A w.env c storage
  | .free => w.env.localStorage = nullPtr
  | .of | .others => True

section Frames

variable {w v : World} {content : Option PjAgentConf} {c : PjAgentConf} {storage ptr a : Addr}

lemma World.reachable_null (h : w.env.localStorage = nullPtr) : w.reachable = ∅ :=
  Set.eq_empty_of_forall_notMem fun _ ha => ha.1 h

lemma own_ne_reachable (h : w.env.localStorage = nullPtr) (ha : a ∈ w.own) :
    w.own ≠ w.reachable := by
  intro he
  rw [he] at ha
  exact ha.1 h

lemma World.mem_reachable (h : Stores w.env storage ptr c) :
    a ∈ w.reachable ↔ a = storage ∨ ptr ≠ nullPtr ∧ a = ptr := by
  obtain ⟨len, hm, -⟩ := h.raw
  have hn : w.env.localStorage ≠ nullPtr := h.isLocal.symm ▸ h.nonnull
  simp only [World.reachable, Set.mem_ofPred_eq, h.isLocal, hm, Option.some.injEq,
    Block.rawEnvStorage.injEq, exists_eq_left', RawEnvStorage.ofConf]
  exact ⟨And.right, fun ha => ⟨h.nonnull, ha⟩⟩

lemma Stores.storage_ne_path {env : JvmtiEnv} (h : Stores env storage ptr c) : storage ≠ ptr := by
  rintro rfl
  obtain ⟨len, hm, hp⟩ := h.raw
  cases hc : c.phasicjExec with
  | none =>
    rw [hc] at hp
    exact h.nonnull hp
  | some s =>
    rw [hc] at hp
    obtain ⟨-, hb, -⟩ := hp
    simp [hm] at hb

lemma OthersStep.own_eq (hs : OthersStep w v) : v.own = w.own := by
  ext x
  cases hs with
  | @allocate A size y env' hsize hrun =>
    obtain ⟨-, hf, rfl⟩ := Jvmti.allocate_returned hrun hsize
    constructor
    · rintro ⟨hx, b, hb⟩
      have hxy : x ≠ y := fun he => hx (.inl he)
      rw [JvmtiEnv.set_other hxy] at hb
      exact ⟨fun hin => hx (.inr hin), b, hb⟩
    · rintro ⟨hx, b, hb⟩
      have hxy : x ≠ y := by
        rintro rfl
        simp [hf] at hb
      exact ⟨fun hin => hin.elim hxy hx, b, (JvmtiEnv.set_other hxy ..).trans hb⟩
  | @deallocate y env' hy hrun =>
    obtain rfl := Jvmti.deallocate_returned hrun
    constructor
    · rintro ⟨hx, b, hb⟩
      have hxy : x ≠ y := by
        rintro rfl
        simp at hb
      rw [JvmtiEnv.set_other hxy] at hb
      exact ⟨fun hin => hx ⟨hin, hxy⟩, b, hb⟩
    · rintro ⟨hx, b, hb⟩
      have hxy : x ≠ y := (ne_of_mem_of_not_mem hy hx).symm
      exact ⟨fun hin => hx hin.1, b, (JvmtiEnv.set_other hxy ..).trans hb⟩
  | @write y b₀ hy =>
    constructor
    · rintro ⟨hx, b, hb⟩
      rw [JvmtiEnv.set_other (ne_of_mem_of_not_mem hy hx).symm] at hb
      exact ⟨hx, b, hb⟩
    · rintro ⟨hx, b, hb⟩
      exact ⟨hx, b, (JvmtiEnv.set_other (ne_of_mem_of_not_mem hy hx).symm ..).trans hb⟩

lemma OthersStep.reachable_eq (hs : OthersStep w v) (h : w.Holds content) :
    v.reachable = w.reachable := by
  obtain ⟨hl, hm⟩ := hs.frame
  cases content with
  | none =>
    rw [World.reachable_null h.contains, World.reachable_null (hl.trans h.contains)]
  | some c =>
    obtain ⟨storage, ptr, hst, hout, -⟩ := h.contains
    obtain ⟨len, hraw, -⟩ := hst.raw
    have hv := hm storage _ hout hraw
    simp only [World.reachable, hl, hst.isLocal, hv, hraw]

end Frames

section Calls

variable {w v : World} {content : Option PjAgentConf} {A : Allocator} {c : PjAgentConf}
  {storage : Addr} {env' : JvmtiEnv} {call : Call}

lemma World.Holds.init_cases (h : w.Holds none) (A : Allocator) (c : PjAgentConf) :
    (∃ code message, A.allocate w.env.memory RawEnvStorage.size = .error code ∧
      (EnvStorage.init A c).run w.env = .panicked message w.env) ∨
    (∃ storage message, A.allocate w.env.memory RawEnvStorage.size = .ok storage ∧
      ¬ PathStored A w.env c storage ∧ (EnvStorage.init A c).run w.env =
        .panicked message (w.env.set storage (some (.uninit RawEnvStorage.size)))) ∨
    ∃ storage env' ptr, A.allocate w.env.memory RawEnvStorage.size = .ok storage ∧
      PathStored A w.env c storage ∧ (EnvStorage.init A c).run w.env = .returned () env' ∧
      Stores env' storage ptr c ∧ (ptr ≠ nullPtr → w.env.memory ptr = none) ∧
      ∀ a, a ≠ storage → a ≠ ptr ∨ ptr = nullPtr → env'.memory a = w.env.memory a := by
  cases ha : A.allocate w.env.memory RawEnvStorage.size with
  | error code => exact .inl ⟨code, _, rfl, init_refused h.contains ha⟩
  | ok storage =>
    by_cases hp : PathStored A w.env c storage
    · obtain ⟨env', ptr, hr⟩ := init_completes h.contains ha hp
      exact .inr (.inr ⟨storage, env', ptr, rfl, hp, hr⟩)
    · obtain ⟨message, hr⟩ := init_leaks h.contains ha hp
      exact .inr (.inl ⟨storage, message, rfl, hp, hr⟩)

lemma World.Holds.set_fresh {b : Block} (h : w.Holds none) (hf : w.env.memory storage = none) :
    World.Holds { w with env := w.env.set storage (some b) } none :=
  ⟨h.contains, h.nonnull, h.grows (grows_set hf _)⟩

lemma World.Holds.completed {env' : JvmtiEnv} {ptr : Addr} (h : w.Holds none)
    (ha : w.env.memory storage = none) (hst : Stores env' storage ptr c)
    (hp : ptr ≠ nullPtr → w.env.memory ptr = none)
    (hm : ∀ a, a ≠ storage → a ≠ ptr ∨ ptr = nullPtr → env'.memory a = w.env.memory a) :
    World.Holds { w with env := env' } (some c) := by
  have hstorage := h.notMem_others ha
  have hptr : ptr ∉ w.others := by
    by_cases hz : ptr = nullPtr
    · exact hz ▸ h.nonnull
    · exact h.notMem_others (hp hz)
  refine ⟨⟨storage, ptr, hst, hstorage, hptr⟩, h.nonnull, ?_⟩
  intro x hx
  obtain ⟨b, hb⟩ := h.live x hx
  exact ⟨b, (hm x (ne_of_mem_of_not_mem hx hstorage)
    (.inl (ne_of_mem_of_not_mem hx hptr))).trans hb⟩

/-- What a call can do to a storage with this content. -/
inductive CallEffect (w : World) (call : Call) : Option PjAgentConf → World → Prop
  | unchanged {content : Option PjAgentConf} : call.Keeps w → CallEffect w call content w
  | leaks {storage : Addr} :
      ¬ call.Keeps w → w.env.memory storage = none →
      CallEffect w call none
        { w with env := w.env.set storage (some (.uninit RawEnvStorage.size)) }
  | stores {c : PjAgentConf} {storage ptr : Addr} {env' : JvmtiEnv} :
      call.Keeps w → w.env.memory storage = none → Stores env' storage ptr c →
      (ptr ≠ nullPtr → w.env.memory ptr = none) →
      (∀ a, a ≠ storage → a ≠ ptr ∨ ptr = nullPtr → env'.memory a = w.env.memory a) →
      CallEffect w call none { w with env := env' }
  | frees {c : PjAgentConf} {storage : Addr} {env' : JvmtiEnv} :
      ¬ call.Keeps w → World.Holds { w with env := env' } none →
      storage ∈ World.own { w with env := env' } →
      CallEffect w call (some c) { w with env := env' }
  | others {content : Option PjAgentConf} {v : World} :
      call.Keeps w → OthersStep w v → CallEffect w call content v

lemma World.Holds.init_effect (h : w.Holds content)
    (hr : ((EnvStorage.init A c).run w.env).state? = some env') :
    CallEffect w (.init A c) content { w with env := env' } := by
  cases content with
  | none =>
    rcases h.init_cases A c with ⟨_, _, ha, hrun⟩ | ⟨storage, _, ha, hp, hrun⟩ |
      ⟨storage, u, ptr, ha, hp, hrun, hst, hfresh, hm⟩
    · rw [hrun] at hr
      obtain rfl : w.env = env' := Option.some.inj hr
      refine .unchanged fun _ storage hs => ?_
      rw [ha] at hs
      cases hs
    · rw [hrun] at hr
      obtain rfl := Option.some.inj hr
      exact .leaks (fun hk => hp (hk h.contains storage ha)) (A.fresh _ _ _ (by decide) ha).2
    · rw [hrun] at hr
      obtain rfl : u = env' := Option.some.inj hr
      refine .stores ?_ (A.fresh _ _ _ (by decide) ha).2 hst hfresh hm
      intro _ storage' ha'
      obtain rfl : storage = storage' := Except.ok.inj (ha.symm.trans ha')
      exact hp
  | some c' =>
    obtain ⟨storage, ptr, hst, -⟩ := h.contains
    rw [init_stores hst] at hr
    obtain rfl : w.env = env' := Option.some.inj hr
    exact .unchanged fun hn => absurd (hst.isLocal.symm.trans hn) hst.nonnull

lemma World.Holds.free_effect (h : w.Holds content)
    (hr : (EnvStorage.free.run w.env).state? = some env') :
    CallEffect w .free content { w with env := env' } := by
  cases content with
  | none =>
    rw [free_null h.contains] at hr
    obtain rfl : w.env = env' := Option.some.inj hr
    exact .unchanged h.contains
  | some c =>
    obtain ⟨storage, ptr, hst, hout, -⟩ := h.contains
    obtain ⟨u, hrun, hl, hm⟩ := free_stores hst
    obtain ⟨u', hrun', hu⟩ := h.free_returns
    rw [hrun] at hr hrun'
    obtain rfl : u = env' := Option.some.inj hr
    obtain ⟨-, rfl⟩ := Outcome.returned.inj hrun'
    obtain ⟨len, hraw, -⟩ := hst.raw
    exact .frees (fun hn => hst.nonnull (hst.isLocal.symm.trans hn)) hu
      ⟨hout, _, (hm storage hst.storage_ne_path).trans hraw⟩

lemma CallStep.effect (hs : CallStep w call v) (h : w.Holds content) :
    CallEffect w call content v := by
  cases hs with
  | init hr => exact h.init_effect hr
  | @of env' hr =>
    rw [h.of_returns] at hr
    obtain rfl : w.env = env' := Option.some.inj hr
    exact .unchanged trivial
  | free hr => exact h.free_effect hr
  | others ho => exact .others trivial ho

lemma CallStep.holds (hs : CallStep w call v) (h : w.Holds content) : ∃ d, v.Holds d := by
  cases hs.effect h with
  | unchanged => exact ⟨content, h⟩
  | leaks _ hf => exact ⟨none, h.set_fresh hf⟩
  | stores _ hf hst hp hm => exact ⟨_, h.completed hf hst hp hm⟩
  | frees _ hu => exact ⟨none, hu⟩
  | others _ ho => exact ⟨content, ho.holds h⟩

lemma own_completed {ptr : Addr} (h : w.Holds none) (ho : w.own = ∅)
    (ha : w.env.memory storage = none) (hst : Stores env' storage ptr c)
    (hp : ptr ≠ nullPtr → w.env.memory ptr = none)
    (hm : ∀ a, a ≠ storage → a ≠ ptr ∨ ptr = nullPtr → env'.memory a = w.env.memory a) :
    World.own { w with env := env' } = World.reachable { w with env := env' } := by
  have hh := h.completed ha hst hp hm
  ext x
  rw [World.mem_reachable hst]
  constructor
  · rintro ⟨hx, b, hb⟩
    by_contra hn
    push Not at hn
    have hxp : x ≠ ptr ∨ ptr = nullPtr := by
      by_cases hz : ptr = nullPtr
      · exact .inr hz
      · exact .inl (hn.2 hz)
    rw [hm x hn.1 hxp] at hb
    exact Set.notMem_empty x (ho ▸ ⟨hx, b, hb⟩)
  · obtain ⟨hlive, hplive⟩ := hst.live
    rintro (rfl | ⟨hn, rfl⟩)
    · exact ⟨h.notMem_others ha, hlive⟩
    · exact ⟨h.notMem_others (hp hn), hplive.resolve_left hn⟩

/-- A call from a state without unreachable blocks leads to such a state exactly if it keeps them
reachable. -/
lemma CallStep.keeps_iff (hs : CallStep w call v) (h : w.Holds content)
    (ht : w.own = w.reachable) : v.own = v.reachable ↔ call.Keeps w := by
  cases hs.effect h with
  | unchanged hk => exact iff_of_true ht hk
  | leaks hk hf =>
    refine iff_of_false ?_ hk
    exact own_ne_reachable h.contains ⟨h.notMem_others hf, _, JvmtiEnv.set_same ..⟩
  | stores hk hf hst hp hm =>
    have ho : w.own = ∅ := ht.trans (World.reachable_null h.contains)
    exact iff_of_true (own_completed h ho hf hst hp hm) hk
  | frees hk hu hmem => exact iff_of_false (own_ne_reachable hu.contains hmem) hk
  | others hk ho => exact iff_of_true (by rw [ho.own_eq, ho.reachable_eq h, ht]) hk

end Calls

/-- No call deallocates or uses a block that is not live. -/
def World.Defined (w : World) : Prop :=
  (∀ A c, (EnvStorage.init A c).run w.env ≠ .undefined) ∧ EnvStorage.of.run w.env ≠ .undefined ∧
    EnvStorage.free.run w.env ≠ .undefined

lemma World.Holds.defined {w : World} {content : Option PjAgentConf} (h : w.Holds content) :
    w.Defined := by
  refine ⟨fun A c => ?_, ?_, ?_⟩
  · cases content with
    | none =>
      rcases h.init_cases A c with ⟨_, _, -, hr⟩ | ⟨_, _, -, -, hr⟩ | ⟨_, _, _, -, -, hr, -⟩ <;>
        simp [hr]
    | some c' =>
      obtain ⟨storage, ptr, hst, -⟩ := h.contains
      simp [init_stores hst]
  · simp [h.of_returns]
  · cases content with
    | none => simp [free_null h.contains]
    | some c =>
      obtain ⟨u, hr, -⟩ := h.free_returns
      simp [hr]

def KeepingStep (w : World) (call : Call) (v : World) : Prop := CallStep w call v ∧ call.Keeps w

/-- A world before the first call: all its live blocks are the others'. -/
structure World.Untouched (w : World) : Prop where
  initial : w.Initial
  own : w.own = ∅

lemma run_holds {w₀ w : World} {t : List Call} (h₀ : w₀.Untouched) (h : Run CallStep w₀ t w) :
    ∃ content, w.Holds content := by
  refine h.invariant (fun w => ∃ content, w.Holds content) ?_ ⟨none, h₀.initial.holds⟩
  rintro u call v ⟨content, hu⟩ hs
  exact hs.holds hu

lemma run_own {w₀ w : World} {t : List Call} (h₀ : w₀.Untouched) (h : Run KeepingStep w₀ t w) :
    w.own = w.reachable := by
  induction h with
  | nil => rw [h₀.own, World.reachable_null h₀.initial.1]
  | @snoc u v t call hr hs ih =>
    obtain ⟨content, hu⟩ := run_holds h₀ (hr.mono fun _ _ _ hk => hk.1)
    exact (hs.1.keeps_iff hu ih).mpr hs.2

/-- In every run no block is used or deallocated that is not live. In the runs whose calls all keep
the storage's blocks reachable, the live blocks are the reachable ones in every state, and a further
call leaves it so exactly if it keeps them reachable too. -/
theorem storage_blocks {w₀ w : World} {t : List Call} (h₀ : w₀.Untouched) :
    (Run CallStep w₀ t w → w.Defined) ∧
    (Run KeepingStep w₀ t w → w.own = w.reachable ∧
      (w.env.localStorage = nullPtr → w.own = ∅) ∧
      ∀ call v, CallStep w call v → (v.own = v.reachable ↔ call.Keeps w)) := by
  constructor
  · intro h
    obtain ⟨content, hw⟩ := run_holds h₀ h
    exact hw.defined
  · intro h
    have ho := run_own h₀ h
    obtain ⟨content, hw⟩ := run_holds h₀ (h.mono fun _ _ _ hk => hk.1)
    refine ⟨ho, fun hn => ho.trans (World.reachable_null hn), ?_⟩
    intro call v hs
    exact hs.keeps_iff hw ho

section Example

lemma emptyWorld_untouched : emptyWorld.Untouched := by
  refine ⟨emptyWorld_initial, Set.eq_empty_of_forall_notMem ?_⟩
  rintro a ⟨-, b, hb⟩
  cases hb

def storedWorld : World :=
  { emptyWorld with
    env := { (emptyWorld.env.set 64 (some (.uninit RawEnvStorage.size))).set 64
      (some (.rawEnvStorage (.ofConf .newWithDefaults nullPtr 0))) with localStorage := 64 } }

def freedWorld : World :=
  { storedWorld with env := { storedWorld.env with localStorage := nullPtr } }

lemma init_storedWorld : CallStep emptyWorld (.init oneBlock .newWithDefaults) storedWorld :=
  .init rfl

theorem storage_blocks_stored : storedWorld.own = storedWorld.reachable := by
  have hk : Call.Keeps emptyWorld (.init oneBlock .newWithDefaults) := by
    intro _ storage ha
    obtain rfl : 64 = storage := Except.ok.inj ha
    exact ⟨by decide, fun s hs => by cases hs⟩
  exact ((storage_blocks emptyWorld_untouched).2 (.single ⟨init_storedWorld, hk⟩)).1

theorem storage_blocks_leak :
    ¬ ∀ (w₀ w : World) (t : List Call), w₀.Untouched → Run CallStep w₀ t w →
      w.own = w.reachable := by
  intro h
  have hr : Run CallStep emptyWorld ([.init oneBlock .newWithDefaults] ++ [.free]) freedWorld :=
    (Run.single init_storedWorld).snoc (.free rfl)
  have hm : 64 ∈ freedWorld.own := ⟨fun h => h, _, rfl⟩
  rw [h _ _ _ emptyWorld_untouched hr] at hm
  exact hm.1 rfl

end Example

end PhasicJ.AgentJvm
