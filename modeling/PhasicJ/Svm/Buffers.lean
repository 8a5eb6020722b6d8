import PhasicJ.Svm.EntryPoint
import PhasicJ.Transitions.LabelledRuns

/-! The buffers that the native instrumenter hands out, and the values that own them. -/

namespace PhasicJ.Svm

open Panics CMemory InstrumenterProcess Transitions

/-- The memory, with the blocks of `UnmanagedMemory.malloc` that are not freed. -/
structure Unmanaged where
  native : Native
  live : List ℕ

/-- A value that owns a buffer, and the class that it was instrumented from. -/
structure Held where
  buffer : SvmInstrBuffer
  classData : Bytes

def Held.blocks (b : Held) : List ℕ := (b.buffer.ptr.map Pointer.block).toList

structure BufferWorld where
  heap : Unmanaged
  buffers : List Held
  forgotten : List ℕ

def svmInstrFree (buf : SvmInstrBuffer) : Action Unmanaged (Except Unit Unit) where
  run m :=
    match buf.ptr with
    | none => .returned (.ok ()) m
    | some ptr =>
      if ptr.offset = 0 ∧ ptr.block ∈ m.live then
        .returned (.ok ())
          ⟨{ m.native with memory := m.native.memory.free ptr }, m.live.erase ptr.block⟩
      else .undefined

namespace Unmanaged

/-- What the memory is after a call that has left it so: the new blocks are its own. -/
def after (m : Unmanaged) (s : Native) : Unmanaged :=
  ⟨s, m.live ++ List.range' m.native.memory.blocks.length
    (s.memory.blocks.length - m.native.memory.blocks.length)⟩

lemma after_same {m : Unmanaged} {s : Native} (h : s.memory = m.native.memory) :
    m.after s = ⟨s, m.live⟩ := by
  rw [after, h, Nat.sub_self, List.range'_zero, List.append_nil]

lemma after_answered (m : Unmanaged) (out : JavaBytes) :
    m.after (m.native.answered (some (some out))) =
      ⟨m.native.answered (some (some out)), m.live ++ [m.native.memory.blocks.length]⟩ := by
  simp [after, Native.answered]

end Unmanaged

namespace BufferWorld

def memory (w : BufferWorld) : Memory UInt8 := w.heap.native.memory

def heldBlocks (w : BufferWorld) : List ℕ := w.buffers.flatMap Held.blocks

def initial (s : Native) : BufferWorld := ⟨⟨s, []⟩, [], []⟩

inductive Operation where
  | instrument (inBuf : Slice) (classData : Bytes)
  | free (buf : SvmInstrBuffer)
  | forget (buf : SvmInstrBuffer)
  | others

/-- A value can be given to `svm_instr_free` once, since that takes it. The rest of the process
leaves the blocks of the native instrumenter alone. -/
inductive Step (instrumenter : JavaBytes → Option (Option JavaBytes)) :
    BufferWorld → Operation → BufferWorld → Prop
  | instrument {w : BufferWorld} {inBuf : Slice} {classData : Bytes} {buf : SvmInstrBuffer}
      {s : Native} :
      w.memory.Holds inBuf.ptr classData → inBuf.len = classData.length →
      (svmInstrInstrument instrumenter inBuf).run w.heap.native = .returned (.ok buf) s →
      Step instrumenter w (.instrument inBuf classData)
        { w with heap := w.heap.after s, buffers := ⟨buf, classData⟩ :: w.buffers }
  | instrumentFails {w : BufferWorld} {inBuf : Slice} {classData : Bytes} {s : Native} :
      w.memory.Holds inBuf.ptr classData → inBuf.len = classData.length →
      (svmInstrInstrument instrumenter inBuf).run w.heap.native = .returned (.error ()) s →
      Step instrumenter w (.instrument inBuf classData) { w with heap := w.heap.after s }
  | instrumentPanics {w : BufferWorld} {inBuf : Slice} {classData : Bytes} {message : String}
      {s : Native} :
      w.memory.Holds inBuf.ptr classData → inBuf.len = classData.length →
      (svmInstrInstrument instrumenter inBuf).run w.heap.native = .panicked message s →
      Step instrumenter w (.instrument inBuf classData) { w with heap := w.heap.after s }
  | free {w : BufferWorld} {b : Held} {before after : List Held} {r : Except Unit Unit}
      {heap : Unmanaged} :
      w.buffers = before ++ b :: after → (svmInstrFree b.buffer).run w.heap = .returned r heap →
      Step instrumenter w (.free b.buffer) { w with heap, buffers := before ++ after }
  | forget {w : BufferWorld} {b : Held} {before after : List Held} :
      w.buffers = before ++ b :: after →
      Step instrumenter w (.forget b.buffer)
        { w with buffers := before ++ after, forgotten := b.blocks ++ w.forgotten }
  | others {w : BufferWorld} {memory : Memory UInt8} :
      w.memory.blocks.length ≤ memory.blocks.length →
      (∀ block ∈ w.heap.live, memory.blocks[block]? = w.memory.blocks[block]?) →
      Step instrumenter w .others
        { w with heap := { w.heap with native := { w.heap.native with memory } } }

/-- The value holds what the instrumenter made of its class, if that was anything. -/
def Reads (instrumenter : JavaBytes → Option (Option JavaBytes)) (m : Memory UInt8) (b : Held) :
    Prop :=
  ∃ (h : b.classData.length < 2 ^ 31) (answer : Option JavaBytes),
    instrumenter (.ofBytes b.classData h) = some answer ∧
    match answer with
    | none => b.buffer = ⟨none, 0⟩
    | some out => ∃ block, b.buffer = ⟨some ⟨block, 0⟩, out.bytes.length⟩ ∧
        m.Holds ⟨block, 0⟩ out.toBytes

structure Ok (instrumenter : JavaBytes → Option (Option JavaBytes)) (w : BufferWorld) : Prop where
  reads : ∀ b ∈ w.buffers, Reads instrumenter w.memory b
  live : w.heap.live.Perm (w.heldBlocks ++ w.forgotten)
  once : w.heap.live.Nodup
  bound : ∀ block ∈ w.heap.live, block < w.memory.blocks.length

section Buffers

variable {instrumenter : JavaBytes → Option (Option JavaBytes)} {w u : BufferWorld}
  {op : Operation} {b : Held} {before after : List Held} {m m' : Memory UInt8} {inBuf : Slice}
  {classData : Bytes} {s : Native} {t : List Operation}

lemma Reads.same (h : Reads instrumenter m b)
    (hm : ∀ block ∈ b.blocks, m'.blocks[block]? = m.blocks[block]?) :
    Reads instrumenter m' b := by
  obtain ⟨hlen, answer, ha, hb⟩ := h
  refine ⟨hlen, answer, ha, ?_⟩
  cases answer with
  | none => exact hb
  | some out =>
    obtain ⟨block, hbuf, hholds⟩ := hb
    refine ⟨block, hbuf, hholds.same (hm block ?_)⟩
    rw [Held.blocks, hbuf]
    exact List.mem_singleton_self block

lemma Reads.asSlice (h : Reads instrumenter m b) :
    ∃ (h : b.classData.length < 2 ^ 31) (answer : Option JavaBytes),
      instrumenter (.ofBytes b.classData h) = some answer ∧
      b.buffer.asSlice m = answer.map JavaBytes.toBytes := by
  obtain ⟨hlen, answer, ha, hb⟩ := h
  refine ⟨hlen, answer, ha, ?_⟩
  cases answer with
  | none => rw [SvmInstrBuffer.asSlice, hb]; rfl
  | some out =>
    obtain ⟨block, hbuf, hholds⟩ := hb
    have hread := Memory.Holds.readFrom [] out.toBytes hholds
    rw [SvmInstrBuffer.asSlice, hbuf, Option.bind_some]
    simpa [JavaBytes.toBytes] using hread

lemma heldBlocks_perm (hv : w.buffers = before ++ b :: after) :
    w.heldBlocks.Perm (b.blocks ++ (before ++ after).flatMap Held.blocks) := by
  rw [heldBlocks, hv]
  exact List.perm_middle.flatMap_right Held.blocks

lemma Ok.mem_live (h : w.Ok instrumenter) (hb : b ∈ w.buffers) {block : ℕ} (hm : block ∈ b.blocks) :
    block ∈ w.heap.live :=
  h.live.mem_iff.mpr (List.mem_append_left _ (List.mem_flatMap.mpr ⟨b, hb, hm⟩))

lemma svmInstrInstrument_cases (h : s.memory.Holds inBuf.ptr classData)
    (hin : inBuf.len = classData.length) :
    (∃ hlen : classData.length < 2 ^ 31, (svmInstrInstrument instrumenter inBuf).run s =
      .returned (svmAnswer s (instrumenter (.ofBytes classData hlen)))
        (s.answered (instrumenter (.ofBytes classData hlen)))) ∨
    (svmInstrInstrument instrumenter inBuf).run s = .panicked tryFromIntError s := by
  by_cases hlen : classData.length < 2 ^ 31
  · exact .inl ⟨hlen, svmInstrInstrument_run h hin hlen⟩
  · right
    rw [svmInstrInstrument, hin, usizeToCInt, Action.require, if_neg (by simpa using hlen)]
    rfl

lemma Ok.unchanged (h : w.Ok instrumenter) (hs : s.memory = w.memory) :
    Ok instrumenter { w with heap := w.heap.after s } := by
  rw [Unmanaged.after_same hs]
  exact ⟨fun b hb => (h.reads b hb).same fun _ _ => congrArg (·.blocks[_]?) hs, h.live, h.once,
    fun block hb => (h.bound block hb).trans_eq (congrArg (·.blocks.length) hs).symm⟩

lemma Ok.allocated (h : w.Ok instrumenter) {hlen : classData.length < 2 ^ 31} {out : JavaBytes}
    (ha : instrumenter (.ofBytes classData hlen) = some (some out)) :
    Ok instrumenter { w with
      heap := w.heap.after (w.heap.native.answered (some (some out)))
      buffers :=
        ⟨⟨some ⟨w.memory.blocks.length, 0⟩, out.bytes.length⟩, classData⟩ :: w.buffers } := by
  rw [Unmanaged.after_answered]
  have hnew : w.heap.native.memory.blocks.length ∉ w.heap.live := fun hm => (h.bound _ hm).ne rfl
  refine ⟨List.forall_mem_cons.mpr ⟨?_, fun b hb => (h.reads b hb).same fun block hm => ?_⟩,
    ?_, ?_, ?_⟩
  · exact ⟨hlen, some out, ha, _, rfl, Memory.holds_last _ _⟩
  · exact List.getElem?_append_left (h.bound block (h.mem_live hb hm))
  · exact List.perm_append_singleton _ _ |>.trans (h.live.cons _)
  · exact h.once.append (List.nodup_singleton _) (by simpa using hnew)
  · intro block hb
    change block < (w.memory.blocks ++ [out.toBytes.map some]).length
    rw [List.length_append, List.length_singleton]
    rcases List.mem_append.mp hb with hb | hb
    · exact Nat.lt_succ_of_lt (h.bound block hb)
    · rw [List.mem_singleton.mp hb]
      exact Nat.lt_succ_self _

lemma svmInstrFree_null (h : b.buffer.ptr = none) (m : Unmanaged) :
    (svmInstrFree b.buffer).run m = .returned (.ok ()) m := by
  simp only [svmInstrFree, h]

lemma svmInstrFree_live {block : ℕ} (h : b.buffer.ptr = some ⟨block, 0⟩) {m : Unmanaged}
    (hm : block ∈ m.live) : (svmInstrFree b.buffer).run m = .returned (.ok ())
      ⟨{ m.native with memory := m.native.memory.free ⟨block, 0⟩ }, m.live.erase block⟩ := by
  simp only [svmInstrFree, h, hm, and_self, if_true]

lemma Reads.ptr_cases (h : Reads instrumenter m b) :
    b.buffer.ptr = none ∧ b.blocks = [] ∨
      ∃ block, b.buffer.ptr = some ⟨block, 0⟩ ∧ b.blocks = [block] := by
  obtain ⟨-, answer, -, hb⟩ := h
  cases answer with
  | none =>
    refine .inl ⟨by rw [hb], ?_⟩
    rw [Held.blocks, hb]
    rfl
  | some out =>
    obtain ⟨block, hbuf, -⟩ := hb
    refine .inr ⟨block, by rw [hbuf], ?_⟩
    rw [Held.blocks, hbuf]
    rfl

lemma Ok.dropped (h : w.Ok instrumenter) (hv : w.buffers = before ++ b :: after) :
    (∀ c ∈ before ++ after, c ∈ w.buffers) ∧ b ∈ w.buffers ∧
      w.heap.live.Perm (b.blocks ++ ((before ++ after).flatMap Held.blocks ++ w.forgotten)) := by
  refine ⟨fun c hc => ?_, ?_, ?_⟩
  · rw [hv]
    rcases List.mem_append.mp hc with hc | hc
    · exact List.mem_append_left _ hc
    · exact List.mem_append_right _ (List.mem_cons_of_mem _ hc)
  · rw [hv]
    exact List.mem_append_right _ List.mem_cons_self
  · rw [← List.append_assoc]
    exact h.live.trans ((heldBlocks_perm hv).append_right _)

lemma Ok.freed (h : w.Ok instrumenter) (hv : w.buffers = before ++ b :: after)
    {r : Except Unit Unit} {heap : Unmanaged}
    (hr : (svmInstrFree b.buffer).run w.heap = .returned r heap) :
    Ok instrumenter { w with heap, buffers := before ++ after } := by
  obtain ⟨hmem, hb, hperm⟩ := h.dropped hv
  rcases (h.reads b hb).ptr_cases with ⟨hp, hblocks⟩ | ⟨block, hp, hblocks⟩
  · rw [svmInstrFree_null hp] at hr
    cases hr
    rw [hblocks] at hperm
    exact ⟨fun c hc => h.reads c (hmem c hc), hperm, h.once, h.bound⟩
  · have hlive : block ∈ w.heap.live := h.mem_live hb (by rw [hblocks]; exact List.mem_cons_self)
    rw [svmInstrFree_live hp hlive] at hr
    cases hr
    rw [hblocks, List.singleton_append] at hperm
    have hnodup := hperm.nodup_iff.mp h.once
    refine ⟨fun c hc => (h.reads c (hmem c hc)).same fun block' hm => ?_, ?_, h.once.erase _, ?_⟩
    · refine Memory.free_other ?_
      rintro rfl
      refine (List.nodup_cons.mp hnodup).1 (List.mem_append_left _ ?_)
      exact List.mem_flatMap.mpr ⟨c, hc, hm⟩
    · have herase := hperm.erase block
      rwa [List.erase_cons_head] at herase
    · intro block' hb'
      change block' < (w.memory.free _).blocks.length
      rw [Memory.length_free]
      exact h.bound block' (List.mem_of_mem_erase hb')

lemma Ok.step (h : w.Ok instrumenter) (hs : Step instrumenter w op u) : u.Ok instrumenter := by
  cases hs with
  | instrument hh hin hr =>
    rcases svmInstrInstrument_cases hh hin with ⟨hlen, hr'⟩ | hr'
    · rw [hr'] at hr
      cases ha : instrumenter (.ofBytes _ hlen) with
      | none =>
        rw [ha] at hr
        cases hr
      | some answer =>
        rw [ha] at hr
        cases answer with
        | none =>
          cases hr
          have hsame := h.unchanged (s := w.heap.native.answered (some none)) rfl
          exact ⟨List.forall_mem_cons.mpr ⟨⟨hlen, none, ha, rfl⟩, hsame.reads⟩, hsame.live,
            hsame.once, hsame.bound⟩
        | some out =>
          cases hr
          exact h.allocated ha
    · rw [hr'] at hr
      cases hr
  | instrumentFails hh hin hr =>
    rcases svmInstrInstrument_cases hh hin with ⟨hlen, hr'⟩ | hr'
    · rw [hr'] at hr
      cases ha : instrumenter (.ofBytes _ hlen) with
      | none =>
        rw [ha] at hr
        cases hr
        exact h.unchanged rfl
      | some answer =>
        rw [ha] at hr
        cases answer <;> cases hr
    · rw [hr'] at hr
      cases hr
  | instrumentPanics hh hin hr =>
    rcases svmInstrInstrument_cases hh hin with ⟨hlen, hr'⟩ | hr'
    · rw [hr'] at hr
      cases hr
    · rw [hr'] at hr
      cases hr
      exact h.unchanged rfl
  | free hv hr => exact h.freed hv hr
  | @forget b before after hv =>
    obtain ⟨hmem, -, hperm⟩ := h.dropped hv
    refine ⟨fun c hc => h.reads c (hmem c hc), hperm.trans ?_, h.once, h.bound⟩
    rw [← List.append_assoc, ← List.append_assoc]
    exact List.perm_append_comm.append_right _
  | others hlen hkeep =>
    refine ⟨fun b hb => (h.reads b hb).same fun block hm => hkeep block (h.mem_live hb hm), h.live,
      h.once, fun block hb => (h.bound block hb).trans_le hlen⟩

lemma ok_run (h : Run (Step instrumenter) (initial s) t w) : w.Ok instrumenter := by
  refine h.invariant (Ok instrumenter) (fun _ _ _ hu hs => hu.step hs) ?_
  refine ⟨?_, .refl _, List.nodup_nil, ?_⟩
  · rintro _ ⟨⟩
  · rintro _ ⟨⟩

lemma forgotten_run (h : Run (Step instrumenter) w t u) (hf : ∀ buf, .forget buf ∉ t) :
    u.forgotten = w.forgotten := by
  induction h with
  | nil => rfl
  | @snoc v u t op hr hs ih =>
    have hlast : ∀ buf, op ≠ .forget buf := by
      rintro buf rfl
      exact hf buf (List.mem_append_right _ List.mem_cons_self)
    rw [← ih fun buf hb => hf buf (List.mem_append_left _ hb)]
    cases hs with
    | forget => exact absurd rfl (hlast _)
    | _ => rfl

lemma free_defined (h : w.Ok instrumenter) (hb : b ∈ w.buffers) :
    (svmInstrFree b.buffer).run w.heap ≠ .undefined := by
  intro hu
  rcases (h.reads b hb).ptr_cases with ⟨hp, -⟩ | ⟨block, hp, hblocks⟩
  · rw [svmInstrFree_null hp] at hu
    cases hu
  · rw [svmInstrFree_live hp (h.mem_live hb (by rw [hblocks]; exact List.mem_cons_self))] at hu
    cases hu

lemma instrument_frame (hh : s.memory.Holds inBuf.ptr classData)
    (hin : inBuf.len = classData.length) {s' : Native}
    (hs : ((svmInstrInstrument instrumenter inBuf).run s).state? = some s') :
    s.memory.blocks <+: s'.memory.blocks := by
  rcases svmInstrInstrument_cases hh hin with ⟨hlen, hr⟩ | hr
  · rw [hr] at hs
    cases hs
    exact answered_blocks ..
  · rw [hr] at hs
    cases hs
    exact List.prefix_refl _

lemma step_frame (h : w.Ok instrumenter) (hs : Step instrumenter w op u) (ho : op ≠ .others)
    {block : ℕ} (hb : block < w.memory.blocks.length) (hl : block ∉ w.heap.live) :
    u.memory.blocks[block]? = w.memory.blocks[block]? := by
  have hkept : ∀ {s : Native}, w.memory.blocks <+: s.memory.blocks →
      s.memory.blocks[block]? = w.memory.blocks[block]? := by
    rintro s ⟨later, hl⟩
    rw [← hl]
    exact List.getElem?_append_left hb
  cases hs with
  | instrument hh hin hr | instrumentFails hh hin hr | instrumentPanics hh hin hr =>
    exact hkept (instrument_frame hh hin (congrArg Outcome.state? hr))
  | @free b before after r heap hv hr =>
    have hmem := (h.dropped hv).2.1
    rcases (h.reads b hmem).ptr_cases with ⟨hp, -⟩ | ⟨block', hp, hblocks⟩
    · rw [svmInstrFree_null hp] at hr
      cases hr
      rfl
    · have hlive := h.mem_live hmem (by rw [hblocks]; exact List.mem_cons_self)
      rw [svmInstrFree_live hp hlive] at hr
      cases hr
      refine Memory.free_other ?_
      rintro rfl
      exact hl hlive
  | forget => rfl
  | others => exact absurd rfl ho

/-- A value reads as what the instrumenter has made of its class until it is freed, whatever the
other calls do, and freeing it frees its own block only. No block of the instrumenter is left but
those of the values, and of the values that were dropped without being freed. -/
theorem buffers_owned (h : Run (Step instrumenter) (initial s) t w) :
    (∀ b ∈ w.buffers, (svmInstrFree b.buffer).run w.heap ≠ .undefined ∧
      ∃ (h : b.classData.length < 2 ^ 31) (answer : Option JavaBytes),
        instrumenter (.ofBytes b.classData h) = some answer ∧
        b.buffer.asSlice w.memory = answer.map JavaBytes.toBytes) ∧
    (w.heap.live.Nodup ∧ w.heap.live.Perm (w.heldBlocks ++ w.forgotten)) ∧
    ((∀ buf, .forget buf ∉ t) → w.heap.live.Perm w.heldBlocks) ∧
    ∀ op u, Step instrumenter w op u → op ≠ .others → ∀ block < w.memory.blocks.length,
      block ∉ w.heap.live → u.memory.blocks[block]? = w.memory.blocks[block]? := by
  have hok := ok_run h
  refine ⟨fun b hb => ⟨free_defined hok hb, (hok.reads b hb).asSlice⟩, ⟨hok.once, hok.live⟩, ?_, ?_⟩
  · intro hf
    have hnone : w.forgotten = [] := forgotten_run h hf
    have hlive := hok.live
    rwa [hnone, List.append_nil] at hlive
  · exact fun op u hs ho block hb hl => step_frame hok hs ho hb hl

end Buffers

section Example

def oneByteNative : Native := ⟨⟨[[some 0xCA]]⟩, none, none⟩

def copying (inBytes : JavaBytes) : Option (Option JavaBytes) := some (some inBytes)

lemma copying_step {w : BufferWorld} (h : w.memory.blocks[0]? = some [some 0xCA]) :
    Step copying w (.instrument ⟨⟨0, 0⟩, 1⟩ [0xCA])
      { w with
        heap :=
          ⟨⟨⟨w.memory.blocks ++ [[some 0xCA]]⟩, some 1, some (some ⟨w.memory.blocks.length, 0⟩)⟩,
            w.heap.live ++ [w.memory.blocks.length]⟩
        buffers := ⟨⟨some ⟨w.memory.blocks.length, 0⟩, 1⟩, [0xCA]⟩ :: w.buffers } := by
  have hh : w.memory.Holds ⟨0, 0⟩ [0xCA] := by
    intro idx a ha
    cases idx with
    | zero => simpa [Memory.read, h] using ha
    | succ idx => cases ha
  have hrun : (svmInstrInstrument copying ⟨⟨0, 0⟩, 1⟩).run w.heap.native = _ :=
    svmInstrInstrument_run hh rfl (by decide)
  have hstep := Step.instrument hh rfl hrun
  rw [copying, Unmanaged.after_answered] at hstep
  exact hstep

/-- Of two buffers the first is freed, and the second still reads as its class. -/
theorem buffers_owned_freed : ∃ t w, Run (Step copying) (initial oneByteNative) t w ∧
    (∃ buf, .free buf ∈ t) ∧ ∃ b, w.buffers = [b] ∧ b.buffer.asSlice w.memory = some [0xCA] ∧
    w.heap.live.Perm b.blocks := by
  have h := (Run.single (copying_step (w := initial oneByteNative) rfl)).snoc (copying_step rfl)
  have h := h.snoc (@Step.free _ _ ⟨⟨some ⟨1, 0⟩, 1⟩, [0xCA]⟩ [_] [] _ _ rfl
    (svmInstrFree_live rfl (by decide)))
  obtain ⟨hreads, -, hlive, -⟩ := buffers_owned h
  obtain ⟨-, hlen, answer, ha, hb⟩ := hreads _ (List.mem_singleton_self _)
  obtain rfl := Option.some.inj ha
  exact ⟨_, _, h, ⟨_, List.mem_append_right _ (List.mem_singleton_self _)⟩, _, rfl, hb,
    hlive (by simp)⟩

end Example

end BufferWorld

end PhasicJ.Svm
