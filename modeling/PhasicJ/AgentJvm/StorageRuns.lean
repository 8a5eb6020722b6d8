import PhasicJ.AgentJvm.EnvStorage
import PhasicJ.Transitions.LabelledRuns

/-! Runs of calls on the environment-local storage, among allocations that are not the storage's. -/

namespace PhasicJ.AgentJvm

open Panics AgentConf Transitions

/-- An environment, and the addresses of the blocks that are not the storage's. -/
structure World where
  env : JvmtiEnv
  others : Set Addr

def World.Initial (w : World) : Prop :=
  w.env.localStorage = nullPtr ∧ nullPtr ∉ w.others ∧ ∀ a ∈ w.others, ∃ b, w.env.memory a = some b

inductive OthersStep : World → World → Prop
  | allocate {w : World} {A : Allocator} {size : ℕ} {a : Addr} {env' : JvmtiEnv} :
      0 < size → (Jvmti.allocate A size).run w.env = .returned a env' →
      OthersStep w ⟨env', insert a w.others⟩
  | deallocate {w : World} {a : Addr} {env' : JvmtiEnv} :
      a ∈ w.others → (Jvmti.deallocate a).run w.env = .returned () env' →
      OthersStep w ⟨env', w.others \ {a}⟩
  | write {w : World} {a : Addr} {b : Block} :
      a ∈ w.others → OthersStep w ⟨w.env.set a (some b), w.others⟩

inductive StorageEvent where
  | initialized (conf : PjAgentConf)
  | read (result : Option EnvStorage)
  | freed
  | panicked (message : String)
  | others
  deriving DecidableEq

/-- The calls on a storage; each may be answered by another allocator. -/
inductive StorageStep : World → StorageEvent → World → Prop
  | init {w : World} {A : Allocator} {options : String} {c : PjAgentConf} {env' : JvmtiEnv} :
      PjAgentConf.newFromAgentOptionsListStr options = .ok c →
      (EnvStorage.init A c).run w.env = .returned () env' →
      StorageStep w (.initialized c) { w with env := env' }
  | initPanics {w : World} {A : Allocator} {options : String} {c : PjAgentConf}
      {message : String} {env' : JvmtiEnv} :
      PjAgentConf.newFromAgentOptionsListStr options = .ok c →
      (EnvStorage.init A c).run w.env = .panicked message env' →
      StorageStep w (.panicked message) { w with env := env' }
  | of {w : World} {r : Option EnvStorage} {env' : JvmtiEnv} :
      EnvStorage.of.run w.env = .returned r env' → StorageStep w (.read r) { w with env := env' }
  | ofPanics {w : World} {message : String} {env' : JvmtiEnv} :
      EnvStorage.of.run w.env = .panicked message env' →
      StorageStep w (.panicked message) { w with env := env' }
  | free {w : World} {env' : JvmtiEnv} :
      EnvStorage.free.run w.env = .returned () env' → StorageStep w .freed { w with env := env' }
  | freePanics {w : World} {message : String} {env' : JvmtiEnv} :
      EnvStorage.free.run w.env = .panicked message env' →
      StorageStep w (.panicked message) { w with env := env' }
  | others {w v : World} : OthersStep w v → StorageStep w .others v

/-- The configuration of the last `init` that no `free` follows. -/
def storedAfter (stored : Option PjAgentConf) : StorageEvent → Option PjAgentConf
  | .initialized c => some c
  | .freed => none
  | .read _ | .panicked _ | .others => stored

def stored (t : List StorageEvent) : Option PjAgentConf := t.foldl storedAfter none

lemma stored_snoc (t : List StorageEvent) (e : StorageEvent) :
    stored (t ++ [e]) = storedAfter (stored t) e := by
  simp [stored]

def World.Contains (w : World) : Option PjAgentConf → Prop
  | none => w.env.localStorage = nullPtr
  | some c => ∃ storage ptr, Stores w.env storage ptr c ∧ storage ∉ w.others ∧ ptr ∉ w.others

structure World.Holds (w : World) (content : Option PjAgentConf) : Prop where
  contains : w.Contains content
  nonnull : nullPtr ∉ w.others
  live : ∀ a ∈ w.others, ∃ b, w.env.memory a = some b

section Preservation

variable {w : World} {content : Option PjAgentConf} {A : Allocator} {c : PjAgentConf}

lemma World.Initial.holds (h : w.Initial) : w.Holds none := ⟨h.1, h.2.1, h.2.2⟩

lemma World.Holds.notMem_others {a : Addr} (h : w.Holds content) (hf : w.env.memory a = none) :
    a ∉ w.others := by
  intro hin
  obtain ⟨b, hb⟩ := h.live a hin
  rw [hf] at hb
  cases hb

lemma Stores.live {env : JvmtiEnv} {storage ptr : Addr} (h : Stores env storage ptr c) :
    (∃ b, env.memory storage = some b) ∧ (ptr = nullPtr ∨ ∃ b, env.memory ptr = some b) := by
  obtain ⟨len, hm, hp⟩ := h.raw
  refine ⟨⟨_, hm⟩, ?_⟩
  cases hc : c.phasicjExec with
  | none =>
    rw [hc] at hp
    exact .inl hp
  | some s =>
    rw [hc] at hp
    exact .inr ⟨_, hp.2.1⟩

lemma World.Holds.contains_frame {env' : JvmtiEnv} {others' : Set Addr} (h : w.Holds content)
    (hl : env'.localStorage = w.env.localStorage)
    (hm : ∀ a b, a ∉ w.others → w.env.memory a = some b → env'.memory a = some b)
    (ho : ∀ a ∈ others', a ∈ w.others ∨ a ≠ nullPtr ∧ w.env.memory a = none) :
    World.Contains ⟨env', others'⟩ content := by
  cases content with
  | none => exact hl.trans h.contains
  | some c =>
    obtain ⟨storage, ptr, hs, hstorage, hptr⟩ := h.contains
    obtain ⟨⟨b, hb⟩, hptrLive⟩ := hs.live
    have hpath : ∀ len, PathAt w.env.memory ptr len c.phasicjExec →
        PathAt env'.memory ptr len c.phasicjExec := by
      intro len hp
      cases hc : c.phasicjExec with
      | none => rwa [hc] at hp
      | some s =>
        rw [hc] at hp
        exact ⟨hp.1, hm _ _ hptr hp.2.1, hp.2.2⟩
    obtain ⟨len, hraw, hp⟩ := hs.raw
    refine ⟨storage, ptr, ⟨hl.trans hs.isLocal, hs.nonnull, len, hm _ _ hstorage hraw,
      hpath len hp⟩, ?_, ?_⟩
    · intro hin
      rcases ho _ hin with hin | ⟨-, hnone⟩
      · exact hstorage hin
      · simp [hnone] at hb
    · intro hin
      rcases ho _ hin with hin | ⟨hn, hnone⟩
      · exact hptr hin
      · rcases hptrLive with hz | ⟨b', hb'⟩
        · exact hn hz
        · simp [hnone] at hb'

lemma World.Holds.frame {env' : JvmtiEnv} {others' : Set Addr} (h : w.Holds content)
    (hl : env'.localStorage = w.env.localStorage)
    (hm : ∀ a b, a ∉ w.others → w.env.memory a = some b → env'.memory a = some b)
    (ho : ∀ a ∈ others', a ∈ w.others ∨ a ≠ nullPtr ∧ w.env.memory a = none)
    (hlive : ∀ a ∈ others', ∃ b, env'.memory a = some b) :
    World.Holds ⟨env', others'⟩ content := by
  refine ⟨h.contains_frame hl hm ho, ?_, hlive⟩
  intro hn
  rcases ho _ hn with hn | ⟨hn, -⟩
  · exact h.nonnull hn
  · exact hn rfl

lemma OthersStep.frame {v : World} (hs : OthersStep w v) :
    v.env.localStorage = w.env.localStorage ∧
      ∀ a b, a ∉ w.others → w.env.memory a = some b → v.env.memory a = some b := by
  cases hs with
  | @allocate A size y env' hsize hrun =>
    obtain ⟨-, hf, rfl⟩ := Jvmti.allocate_returned hrun hsize
    exact ⟨rfl, fun x b _ hb => grows_set hf _ x b hb⟩
  | @deallocate y env' hy hrun =>
    obtain rfl := Jvmti.deallocate_returned hrun
    exact ⟨rfl, fun x b hx hb =>
      (JvmtiEnv.set_other (ne_of_mem_of_not_mem hy hx).symm ..).trans hb⟩
  | @write y b₀ hy =>
    exact ⟨rfl, fun x b hx hb =>
      (JvmtiEnv.set_other (ne_of_mem_of_not_mem hy hx).symm ..).trans hb⟩

lemma OthersStep.holds {v : World} (hs : OthersStep w v) (h : w.Holds content) :
    v.Holds content := by
  obtain ⟨hl, hm⟩ := hs.frame
  cases hs with
  | @allocate A size y env' hsize hrun =>
    obtain ⟨hn, hf, rfl⟩ := Jvmti.allocate_returned hrun hsize
    refine h.frame hl hm ?_ ?_
    · rintro x (rfl | hx)
      · exact .inr ⟨hn, hf⟩
      · exact .inl hx
    · rintro x (rfl | hx)
      · exact ⟨_, JvmtiEnv.set_same ..⟩
      · obtain ⟨b, hb⟩ := h.live x hx
        exact ⟨b, grows_set hf _ x b hb⟩
  | @deallocate y env' hy hrun =>
    obtain rfl := Jvmti.deallocate_returned hrun
    refine h.frame hl hm (fun x hx => .inl hx.1) ?_
    intro x hx
    obtain ⟨b, hb⟩ := h.live x hx.1
    exact ⟨b, (JvmtiEnv.set_other hx.2 ..).trans hb⟩
  | @write y b hy =>
    refine h.frame hl hm (fun x hx => .inl hx) ?_
    intro x hx
    by_cases he : x = y
    · exact ⟨b, by rw [he, JvmtiEnv.set_same]⟩
    · obtain ⟨b', hb⟩ := h.live x hx
      exact ⟨b', (JvmtiEnv.set_other he ..).trans hb⟩

lemma World.Holds.grows {env' : JvmtiEnv} (h : w.Holds content) (hg : Grows w.env env') :
    ∀ a ∈ w.others, ∃ b, env'.memory a = some b := fun a ha =>
  (h.live a ha).imp fun b hb => hg a b hb

lemma World.Holds.init {env' : JvmtiEnv} (h : w.Holds none) (hc : c.phasicjExec ≠ some "")
    (hr : (EnvStorage.init A c).run w.env = .returned () env') :
    World.Holds { w with env := env' } (some c) := by
  rcases init_null (A := A) h.contains hc with
    ⟨u, storage, ptr, hrun, hs, hg, hnew, hptr⟩ | ⟨_, _, hrun, -⟩
  · obtain rfl : u = env' := by simpa [hrun] using hr
    refine ⟨⟨storage, ptr, hs, h.notMem_others hnew, ?_⟩, h.nonnull, h.grows hg⟩
    intro hin
    exact h.notMem_others (hptr (ne_of_mem_of_not_mem hin h.nonnull)) hin
  · simp [hrun] at hr

lemma World.Holds.initPanics {message : String} {env' : JvmtiEnv} (h : w.Holds content)
    (hc : c.phasicjExec ≠ some "")
    (hr : (EnvStorage.init A c).run w.env = .panicked message env') :
    World.Holds { w with env := env' } content := by
  cases content with
  | none =>
    rcases init_null (A := A) h.contains hc with
      ⟨u, _, _, hrun, -⟩ | ⟨_, u, hrun, -, hg, hl⟩
    · simp [hrun] at hr
    · obtain ⟨-, rfl⟩ : _ = message ∧ u = env' := by simpa [hrun] using hr
      exact ⟨hl, h.nonnull, h.grows hg⟩
  | some c' =>
    obtain ⟨storage, ptr, hs, -⟩ := h.contains
    rw [init_stores hs] at hr
    obtain ⟨-, rfl⟩ : _ = message ∧ w.env = env' := by simpa using hr
    exact h

lemma World.Holds.of_returns (h : w.Holds content) :
    EnvStorage.of.run w.env = .returned (content.map EnvStorage.mk) w.env := by
  cases content with
  | none => exact of_null h.contains
  | some c =>
    obtain ⟨storage, ptr, hs, -⟩ := h.contains
    exact of_stores hs

lemma World.Holds.free_returns (h : w.Holds (some c)) :
    ∃ env', EnvStorage.free.run w.env = .returned () env' ∧
      World.Holds { w with env := env' } none := by
  obtain ⟨storage, ptr, hs, -, hptr⟩ := h.contains
  obtain ⟨env', hrun, hl, hm⟩ := free_stores hs
  refine ⟨env', hrun, hl, h.nonnull, ?_⟩
  intro a ha
  obtain ⟨b, hb⟩ := h.live a ha
  exact ⟨b, (hm a (ne_of_mem_of_not_mem ha hptr)).trans hb⟩

end Preservation

lemma StorageStep.holds {w v : World} {e : StorageEvent} {content : Option PjAgentConf}
    (hs : StorageStep w e v) (h : w.Holds content) : v.Holds (storedAfter content e) := by
  cases hs with
  | @init A options c env' hc hr =>
    cases content with
    | none => exact h.init (PjAgentConf.newFromAgentOptionsListStr_exec hc) hr
    | some c' =>
      obtain ⟨storage, ptr, hs, -⟩ := h.contains
      simp [init_stores hs] at hr
  | initPanics hc hr => exact h.initPanics (PjAgentConf.newFromAgentOptionsListStr_exec hc) hr
  | of hr =>
    obtain rfl := of_returned hr
    exact h
  | ofPanics hr => simp [h.of_returns] at hr
  | @free env' hr =>
    cases content with
    | none => simp [free_null h.contains] at hr
    | some c =>
      obtain ⟨u, hrun, hu⟩ := h.free_returns
      obtain rfl : u = env' := by simpa [hrun] using hr
      exact hu
  | @freePanics message env' hr =>
    cases content with
    | none =>
      rw [free_null h.contains] at hr
      obtain ⟨-, rfl⟩ : _ = message ∧ w.env = env' := by simpa using hr
      exact h
    | some c =>
      obtain ⟨u, hrun, -⟩ := h.free_returns
      simp [hrun] at hr
  | others hs => exact hs.holds h

lemma holds_run {w₀ w : World} {t : List StorageEvent} (h₀ : w₀.Initial)
    (h : Run StorageStep w₀ t w) : w.Holds (stored t) := by
  refine Run.trace_invariant (fun t w => w.Holds (stored t)) ?_ h h₀.holds
  intro t u e v hu hs
  rw [stored_snoc]
  exact hs.holds hu

lemma stored_until_freed {w₀ w : World} {t₁ t₂ : List StorageEvent} {c : PjAgentConf}
    (h₀ : w₀.Initial) (h : Run StorageStep w₀ (t₁ ++ .initialized c :: t₂) w)
    (hf : .freed ∉ t₂) : stored (t₁ ++ .initialized c :: t₂) = some c := by
  induction t₂ using List.reverseRecOn generalizing w with
  | nil => rw [stored_snoc, storedAfter]
  | append_singleton t₂ e ih =>
    rw [← List.cons_append, ← List.append_assoc] at h ⊢
    obtain ⟨u, hu, hs⟩ := h.snoc_split
    have hc := ih hu (fun hin => hf (List.mem_append_left _ hin))
    have hholds := holds_run h₀ hu
    rw [stored_snoc, hc]
    rw [hc] at hholds
    cases hs with
    | init _ hr =>
      obtain ⟨storage, ptr, hs, -⟩ := hholds.contains
      simp [init_stores hs] at hr
    | free _ => simp at hf
    | initPanics _ _ | of _ | ofPanics _ | freePanics _ | others _ => rfl

structure World.Answers (w : World) (content : Option PjAgentConf) : Prop where
  of : EnvStorage.of.run w.env = .returned (content.map EnvStorage.mk) w.env
  init_empty : content = none → ∀ (A : Allocator) (options : String) (c : PjAgentConf),
    PjAgentConf.newFromAgentOptionsListStr options = .ok c →
    (∃ env', (EnvStorage.init A c).run w.env = .returned () env') ∨
      ∃ message env', (EnvStorage.init A c).run w.env = .panicked message env' ∧
        AllocationPanic A message ∧ message ≠ zeroSized
  init_again : content ≠ none → ∀ (A : Allocator) (c : PjAgentConf),
    (EnvStorage.init A c).run w.env = .panicked alreadyInitialized w.env
  free_empty : content = none → EnvStorage.free.run w.env = .panicked notInitialized w.env
  free : content ≠ none → ∃ env', EnvStorage.free.run w.env = .returned () env' ∧
    EnvStorage.of.run env' = .returned none env'

lemma World.Holds.answers {w : World} {content : Option PjAgentConf} (h : w.Holds content) :
    w.Answers content := by
  refine ⟨h.of_returns, ?_, ?_, ?_, ?_⟩
  · rintro rfl A options c hc
    rcases init_null (A := A) h.contains (PjAgentConf.newFromAgentOptionsListStr_exec hc) with
      ⟨env', _, _, hrun, -⟩ | ⟨message, env', hrun, hp, -⟩
    · exact .inl ⟨env', hrun⟩
    · exact .inr ⟨message, env', hrun, hp, hp.ne_zeroSized⟩
  · intro hc A c
    obtain ⟨c', rfl⟩ := Option.ne_none_iff_exists'.mp hc
    obtain ⟨storage, ptr, hs, -⟩ := h.contains
    exact init_stores hs
  · rintro rfl
    exact free_null h.contains
  · intro hc
    obtain ⟨c', rfl⟩ := Option.ne_none_iff_exists'.mp hc
    obtain ⟨env', hrun, h'⟩ := h.free_returns
    exact ⟨env', hrun, h'.of_returns⟩

def emptyWorld : World := ⟨⟨fun _ => none, nullPtr⟩, ∅⟩

lemma emptyWorld_initial : emptyWorld.Initial := ⟨rfl, nofun, nofun⟩

end PhasicJ.AgentJvm
