import PhasicJ.CMemory.Blocks
import PhasicJ.InstrumenterProcess.System
import PhasicJ.Panics.Action

/-! The instrumenter behind a C function, and the agent's call of it. -/

namespace PhasicJ.Svm

open Panics CMemory InstrumenterProcess

/-- A `byte[]` of Java. -/
@[ext] structure JavaBytes where
  bytes : List Int8
  length_lt : bytes.length < 2 ^ 31
  deriving DecidableEq

namespace JavaBytes

def newArray (size : ℕ) (h : size < 2 ^ 31) : JavaBytes :=
  ⟨List.replicate size 0, by rwa [List.length_replicate]⟩

def set (a : JavaBytes) (idx : ℕ) (b : Int8) : JavaBytes :=
  ⟨a.bytes.set idx b, by rw [List.length_set]; exact a.length_lt⟩

@[simp] lemma set_bytes (a : JavaBytes) (idx : ℕ) (b : Int8) :
    (a.set idx b).bytes = a.bytes.set idx b := rfl

def ofBytes (data : Bytes) (h : data.length < 2 ^ 31) : JavaBytes :=
  ⟨data.map UInt8.toInt8, by rwa [List.length_map]⟩

def toBytes (a : JavaBytes) : Bytes := a.bytes.map Int8.toUInt8

lemma toBytes_ofBytes (data : Bytes) (h : data.length < 2 ^ 31) :
    (ofBytes data h).toBytes = data := by
  simp [ofBytes, toBytes, Function.comp_def]

end JavaBytes

/-- The memory of the process, and the two variables whose addresses the agent hands over. -/
structure Native where
  memory : Memory UInt8
  outBufSize : Option Int32
  outBuf : Option (Option Pointer)

abbrev NativeAction (α : Type) := Action Native α

section Java

-- the agent's `u8` and the entry point's `char` are the same cell
def readChar (p : Pointer) (idx : ℕ) : NativeAction Int8 where
  run s :=
    match s.memory.read p idx with
    | some b => .returned b.toInt8 s
    | none => .undefined

def writeChar (p : Pointer) (idx : ℕ) (b : Int8) : NativeAction Unit where
  run s :=
    match s.memory.write p idx b.toUInt8 with
    | some memory => .returned () { s with memory := memory }
    | none => .undefined

def malloc (size : ℕ) : NativeAction Pointer where
  run s := .returned (s.memory.malloc size).1 { s with memory := (s.memory.malloc size).2 }

def writeOutBufSize (size : Int32) : NativeAction Unit where
  run s := .returned () { s with outBufSize := some size }

def writeOutBuf (ptr : Option Pointer) : NativeAction Unit where
  run s := .returned () { s with outBuf := some ptr }

/-- The loop of `makeByteArrayFrom`, from an index on. -/
def copyFrom (bytePtr : Pointer) : ℕ → ℕ → JavaBytes → NativeAction JavaBytes
  | 0, _, bytes => pure bytes
  | todo + 1, idx, bytes => do
    let b ← readChar bytePtr idx
    copyFrom bytePtr todo (idx + 1) (bytes.set idx b)

def makeByteArrayFrom (numBytes : Int32) (bytePtr : Pointer) : NativeAction JavaBytes :=
  if numBytes < 0 then Action.panic "NegativeArraySizeException"
  else copyFrom bytePtr numBytes.toNatClampNeg 0
    (.newArray numBytes.toNatClampNeg numBytes.toNatClampNeg_lt)

/-- The loop of `makeCCharBufferFrom`, from an index on. -/
def copyTo (buf : Pointer) : ℕ → List Int8 → NativeAction Unit
  | _, [] => pure ()
  | idx, b :: todo => do
    writeChar buf idx b
    copyTo buf (idx + 1) todo

def makeCCharBufferFrom (bytes : JavaBytes) : NativeAction Pointer := do
  let buf ← malloc bytes.bytes.length
  copyTo buf 0 bytes.bytes
  pure buf

def callInstrumenter (instrumenter : JavaBytes → Option (Option JavaBytes)) (inBytes : JavaBytes) :
    NativeAction (Option JavaBytes) :=
  match instrumenter inBytes with
  | some outBytes => pure outBytes
  | none => Action.panic "Throwable"

def instrument (instrumenter : JavaBytes → Option (Option JavaBytes)) (inBufSize : Int32)
    (inBuf : Pointer) : NativeAction Int32 :=
  Action.catchPanic
    (do
      let inBytes ← makeByteArrayFrom inBufSize inBuf
      let outBytes ← callInstrumenter instrumenter inBytes
      match outBytes with
      | none => do
        writeOutBuf none
        writeOutBufSize 0
        pure 0
      | some outBytes => do
        let buf ← makeCCharBufferFrom outBytes
        writeOutBuf (some buf)
        writeOutBufSize (.ofNat outBytes.bytes.length)
        pure 0)
    (do
      writeOutBuf none
      writeOutBufSize 0
      pure (-1))

end Java

section Rust

structure Slice where
  ptr : Pointer
  len : ℕ

structure SvmInstrBuffer where
  ptr : Option Pointer
  size : ℕ

def SvmInstrBuffer.asSlice (buf : SvmInstrBuffer) (m : Memory UInt8) : Option Bytes :=
  buf.ptr.bind fun ptr => m.readFrom ptr 0 buf.size

def tryFromIntError : String :=
  "called `Result::unwrap()` on an `Err` value: TryFromIntError(())"

def usizeToCInt (n : ℕ) : NativeAction Int32 := do
  Action.require (n < 2 ^ 31) tryFromIntError
  pure (.ofNat n)

def cIntToUsize (n : Int32) : NativeAction ℕ := do
  Action.require (0 ≤ n) tryFromIntError
  pure n.toNatClampNeg

def uninit : NativeAction Unit where
  run s := .returned () { s with outBufSize := none, outBuf := none }

def assumeInit {α : Type} (cell : Native → Option α) : NativeAction α where
  run s :=
    match cell s with
    | some a => .returned a s
    | none => .undefined

def svmInstrInstrument (instrumenter : JavaBytes → Option (Option JavaBytes)) (inBuf : Slice) :
    NativeAction (Except Unit SvmInstrBuffer) := do
  let inBufSize ← usizeToCInt inBuf.len
  uninit
  let err ← instrument instrumenter inBufSize inBuf.ptr
  let outBufSize ← assumeInit Native.outBufSize
  let outBuf ← assumeInit Native.outBuf
  let size ← cIntToUsize outBufSize
  pure (if err = 0 then .ok ⟨outBuf, size⟩ else .error ())

end Rust

section Copies

variable {s : Native} {p : Pointer}

lemma readChar_run {idx : ℕ} {b : UInt8} (h : s.memory.read p idx = some b) :
    (readChar p idx).run s = .returned b.toInt8 s := by
  simp only [readChar, h]

lemma writeChar_run {idx : ℕ} {b : Int8} {m : Memory UInt8}
    (h : s.memory.write p idx b.toUInt8 = some m) :
    (writeChar p idx b).run s = .returned () { s with memory := m } := by
  simp only [writeChar, h]

/-- The loop has copied `before`; the array is zero from there on, or anything else. -/
lemma copyFrom_run (before after : Bytes) (h : s.memory.Holds p (before ++ after))
    {rest : List Int8} (hr : rest.length = after.length) {a : JavaBytes}
    (ha : a.bytes = before.map UInt8.toInt8 ++ rest) :
    ∃ b : JavaBytes, b.bytes = (before ++ after).map UInt8.toInt8 ∧
      (copyFrom p after.length before.length a).run s = .returned b s := by
  induction after generalizing before rest a with
  | nil =>
    obtain rfl := List.length_eq_zero_iff.mp hr
    exact ⟨a, by simpa using ha, rfl⟩
  | cons x after ih =>
    obtain ⟨y, rest, rfl⟩ := List.exists_cons_of_length_eq_add_one hr
    have hchar := readChar_run (h before.length x (by simp))
    have hset : (a.set before.length x.toInt8).bytes =
        (before ++ [x]).map UInt8.toInt8 ++ rest := by
      rw [JavaBytes.set_bytes, ha]
      simp
    obtain ⟨b, hb, hrun⟩ := ih (before ++ [x]) (by simpa using h)
      (by simpa using hr) hset
    refine ⟨b, by simpa using hb, ?_⟩
    rw [List.length_cons, copyFrom, Action.bind_returned hchar]
    simpa using hrun

lemma makeByteArrayFrom_run {data : Bytes} (h : s.memory.Holds p data)
    (hlen : data.length < 2 ^ 31) :
    (makeByteArrayFrom (.ofNat data.length) p).run s = .returned (.ofBytes data hlen) s := by
  have hn : ¬ Int32.ofNat data.length < 0 := Int32.not_lt.mpr (Int32.zero_le_ofNat_of_lt hlen)
  have hsize := Int32.toNatClampNeg_ofNat_of_lt hlen
  obtain ⟨b, hb, hrun⟩ := copyFrom_run [] data h List.length_replicate
    (show (JavaBytes.newArray data.length hlen).bytes = _ from rfl)
  obtain rfl : b = .ofBytes data hlen := JavaBytes.ext hb
  rw [makeByteArrayFrom, if_neg hn]
  simp only [hsize]
  exact hrun

lemma copyTo_run (bytes : List Int8) (blocks : List (List (Option UInt8)))
    (before : List (Option UInt8)) (hs : s.memory =
      ⟨blocks ++ [before ++ List.replicate bytes.length none]⟩) :
    (copyTo ⟨blocks.length, 0⟩ before.length bytes).run s = .returned () { s with
      memory := ⟨blocks ++ [before ++ (bytes.map Int8.toUInt8).map some]⟩ } := by
  induction bytes generalizing before s with
  | nil =>
    change _ = Outcome.returned () { s with memory := ⟨blocks ++ [before ++ []]⟩ }
    rw [show (⟨blocks ++ [before ++ []]⟩ : Memory UInt8) = s.memory from hs.symm]
    rfl
  | cons b bytes ih =>
    have hwrite : s.memory.write ⟨blocks.length, 0⟩ before.length b.toUInt8 =
        some ⟨blocks ++ [before ++ some b.toUInt8 :: List.replicate bytes.length none]⟩ := by
      rw [hs, List.length_cons, List.replicate_succ, Memory.write_last]
    rw [copyTo, Action.bind_returned (writeChar_run hwrite)]
    simpa using ih (s := { s with memory := _ }) (before ++ [some b.toUInt8]) (by simp)

lemma makeCCharBufferFrom_run (bytes : JavaBytes) :
    (makeCCharBufferFrom bytes).run s = .returned ⟨s.memory.blocks.length, 0⟩ { s with
      memory := ⟨s.memory.blocks ++ [bytes.toBytes.map some]⟩ } := by
  have hcopy := copyTo_run (s := { s with memory := (s.memory.malloc bytes.bytes.length).2 })
    bytes.bytes s.memory.blocks [] rfl
  have hmalloc : (malloc bytes.bytes.length).run s =
      .returned ⟨s.memory.blocks.length, 0⟩
        { s with memory := (s.memory.malloc bytes.bytes.length).2 } := rfl
  rw [makeCCharBufferFrom, Action.bind_returned hmalloc]
  exact Action.bind_returned hcopy _

end Copies

section Calls

variable {s : Native} {p : Pointer} {data : Bytes} {inBuf : Slice}
  {instrumenter : JavaBytes → Option (Option JavaBytes)}

def Native.answered (s : Native) : Option (Option JavaBytes) → Native
  | some (some out) =>
    { memory := ⟨s.memory.blocks ++ [out.toBytes.map some]⟩
      outBufSize := some (.ofNat out.bytes.length)
      outBuf := some (some ⟨s.memory.blocks.length, 0⟩) }
  | some none | none => { s with outBufSize := some 0, outBuf := some none }

lemma answered_blocks (s : Native) (answer : Option (Option JavaBytes)) :
    s.memory.blocks <+: (s.answered answer).memory.blocks := by
  rcases answer with _ | _ | out
  · exact List.prefix_refl _
  · exact List.prefix_refl _
  · exact List.prefix_append ..

lemma instrument_run (s : Native) (instrumenter : JavaBytes → Option (Option JavaBytes))
    (h : s.memory.Holds p data) (hlen : data.length < 2 ^ 31) :
    (instrument instrumenter (.ofNat data.length) p).run s =
      .returned (if (instrumenter (.ofBytes data hlen)).isSome then 0 else -1)
        (s.answered (instrumenter (.ofBytes data hlen))) := by
  have hin := makeByteArrayFrom_run h hlen
  rw [instrument]
  cases ho : instrumenter (.ofBytes data hlen) with
  | none =>
    have hcall : (callInstrumenter instrumenter (.ofBytes data hlen)).run s =
        .panicked "Throwable" s := by
      rw [callInstrumenter, ho]
      rfl
    rw [Action.catchPanic_panicked
      ((Action.bind_returned hin _).trans (Action.bind_panicked hcall _))]
    rfl
  | some answer =>
    have hcall : (callInstrumenter instrumenter (.ofBytes data hlen)).run s =
        .returned answer s := by
      rw [callInstrumenter, ho]
      rfl
    refine Action.catchPanic_returned
      ((Action.bind_returned hin _).trans ((Action.bind_returned hcall _).trans ?_)) _
    cases answer with
    | none => rfl
    | some out => exact (Action.bind_returned (makeCCharBufferFrom_run out) _).trans rfl

lemma assumeInit_run {α : Type} (cell : Native → Option α) {a : α} (h : cell s = some a) :
    (assumeInit cell).run s = .returned a s := by
  simp only [assumeInit, h]

lemma usizeToCInt_run {n : ℕ} (h : n < 2 ^ 31) :
    (usizeToCInt n).run s = .returned (.ofNat n) s := by
  rw [usizeToCInt, Action.require, if_pos (decide_eq_true h)]
  rfl

lemma cIntToUsize_run {n : ℕ} (h : n < 2 ^ 31) :
    (cIntToUsize (.ofNat n)).run s = .returned n s := by
  rw [cIntToUsize, Action.require, if_pos (decide_eq_true (Int32.zero_le_ofNat_of_lt h))]
  change Outcome.returned _ s = _
  rw [Int32.toNatClampNeg_ofNat_of_lt h]

def svmAnswer (s : Native) : Option (Option JavaBytes) → Except Unit SvmInstrBuffer
  | some (some out) => .ok ⟨some ⟨s.memory.blocks.length, 0⟩, out.bytes.length⟩
  | some none => .ok ⟨none, 0⟩
  | none => .error ()

lemma svmInstrInstrument_run (h : s.memory.Holds inBuf.ptr data) (hin : inBuf.len = data.length)
    (hlen : data.length < 2 ^ 31) :
    (svmInstrInstrument instrumenter inBuf).run s =
      .returned (svmAnswer s (instrumenter (.ofBytes data hlen)))
        (s.answered (instrumenter (.ofBytes data hlen))) := by
  rw [svmInstrInstrument, hin, Action.bind_returned (usizeToCInt_run hlen)]
  have huninit : uninit.run s = .returned () { s with outBufSize := none, outBuf := none } := rfl
  rw [Action.bind_returned huninit]
  rw [Action.bind_returned
    (instrument_run { s with outBufSize := none, outBuf := none } instrumenter h hlen)]
  rcases instrumenter (.ofBytes data hlen) with _ | _ | out
  · rfl
  · rfl
  · refine (Action.bind_returned (assumeInit_run Native.outBufSize rfl) _).trans ?_
    refine (Action.bind_returned (assumeInit_run Native.outBuf rfl) _).trans ?_
    exact (Action.bind_returned (cIntToUsize_run out.length_lt) _).trans rfl

end Calls

end PhasicJ.Svm
