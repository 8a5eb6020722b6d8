import PhasicJ.AgentJvm.HookReturns
import PhasicJ.Files.CreateDirAll
import PhasicJ.Transitions.LabelledRuns

/-! The dumps of classes to files, by any threads of any virtual machines in one directory. -/

namespace PhasicJ.AgentJvm

open AgentConf Files InstrumenterProcess Panics Transitions

/-- The name of a class. Between its slashes are names without the characters that no name has. -/
structure ClassName where
  text : String
  valid : ∀ part ∈ text.toList.splitOn '/', part ≠ [] ∧ '.' ∉ part ∧ ';' ∉ part ∧ '[' ∉ part

/-- A path by its components, the innermost first. -/
structure PathBuf where
  absolute : Bool
  names : List String

namespace PathBuf

def new : PathBuf := ⟨false, []⟩

-- a `..` would stay, but no name of a class has one
def components (path : String) : List String :=
  (((path.toList.splitOn '/').filter fun part => part ≠ [] ∧ part ≠ ['.']).map
    String.ofList).reverse

def push (p : PathBuf) (path : String) : PathBuf :=
  if path.toList.head? = some '/' then ⟨true, components path⟩
  else ⟨p.absolute, components path ++ p.names⟩

end PathBuf

inductive DumpStage where
  | beforeInstr | afterInstr
  deriving DecidableEq

def DumpStage.dir : DumpStage → String
  | beforeInstr => "classes/before_instr"
  | afterInstr => "classes/after_instr"

def dumpPath (dir className : String) : PathBuf :=
  (PathBuf.new.push dir).push (className ++ ".class")

inductive DumpProgress where
  | creatingDirs (making : Making String)
  | writing (offset : ℕ)
  | returned (ok : Bool)

def DumpProgress.isReturned : DumpProgress → Bool
  | returned _ => true
  | _ => false

/-- A call of `dump_class_to_file` by the hook. -/
structure Dump where
  stage : DumpStage
  className : ClassName
  classData : Bytes
  progress : DumpProgress

namespace Dump

def path (d : Dump) : PathBuf := dumpPath d.stage.dir d.className.text

def file (d : Dump) : List String := d.path.names

def start (stage : DumpStage) (className : ClassName) (classData : Bytes) : Dump :=
  ⟨stage, className, classData,
    .creatingDirs (.mkdir (dumpPath stage.dir className.text).names.tail false [])⟩

end Dump

/-- The working directory and the dumps, and for each file the dump that created it last. -/
structure DumpWorld where
  tree : FileTree String UInt8
  dumps : List Dump
  creator : List String → Option ℕ

namespace DumpWorld

def initial (tree : FileTree String UInt8) : DumpWorld := ⟨tree, [], fun _ => none⟩

def move (w : DumpWorld) (k : ℕ) (d : Dump) (progress : DumpProgress) : DumpWorld :=
  { w with dumps := w.dumps.set k { d with progress } }

/-- Whether the `unwrap` of the dump's result succeeds. -/
def succeeded (w : DumpWorld) (k : ℕ) : Bool :=
  match w.dumps[k]?.map Dump.progress with
  | some (.returned ok) => ok
  | _ => false

/-- The answers of a hook that has dumped its class twice. -/
def answers (w : DumpWorld) (before after : ℕ) (instrument : Option String → Bytes → Option Bytes) :
    HookAnswers :=
  ⟨w.succeeded before, w.succeeded after, instrument⟩

end DumpWorld

inductive DumpAction where
  | start | mkdir (k : ℕ) | create (k : ℕ) | write (k n : ℕ) | ret (k : ℕ) | fail (k : ℕ)
  | others
  deriving DecidableEq

def DumpAction.dump : DumpAction → Option ℕ
  | start | others => none
  | mkdir k | create k | write k _ | ret k | fail k => some k

def InClasses (p : List String) : Prop := ["classes"] <:+ p

inductive DumpStep : DumpWorld → DumpAction → DumpWorld → Prop
  | start {w : DumpWorld} {stage : DumpStage} {className : ClassName} {classData : Bytes} :
      DumpStep w .start { w with dumps := w.dumps ++ [.start stage className classData] }
  | mkdir {w : DumpWorld} {k : ℕ} {d : Dump} {m m' : Making String}
      {tree : FileTree String UInt8} :
      w.dumps[k]? = some d → d.progress = .creatingDirs m → m.next w.tree = some (tree, m') →
      DumpStep w (.mkdir k) { w.move k d (.creatingDirs m') with tree }
  | mkdirFails {w : DumpWorld} {k : ℕ} {d : Dump} {m : Making String} :
      w.dumps[k]? = some d → d.progress = .creatingDirs m → m ≠ .made → m.next w.tree = none →
      DumpStep w (.mkdir k) (w.move k d (.returned false))
  | create {w : DumpWorld} {k : ℕ} {d : Dump} {n : String} {p : List String}
      {tree : FileTree String UInt8} :
      w.dumps[k]? = some d → d.progress = .creatingDirs .made → d.file = n :: p →
      w.tree.create n p = .ok tree →
      DumpStep w (.create k)
        { w.move k d (.writing 0) with
          tree
          creator := Function.update w.creator d.file (some k) }
  | createFails {w : DumpWorld} {k : ℕ} {d : Dump} {n : String} {p : List String} {e : IoError} :
      w.dumps[k]? = some d → d.progress = .creatingDirs .made → d.file = n :: p →
      w.tree.create n p = .error e →
      DumpStep w (.create k) (w.move k d (.returned false))
  | write {w : DumpWorld} {k n offset : ℕ} {d : Dump} :
      w.dumps[k]? = some d → d.progress = .writing offset → 0 < n →
      offset + n ≤ d.classData.length →
      DumpStep w (.write k n)
        { w.move k d (.writing (offset + n)) with
          tree := w.tree.modify d.file fun file =>
            writeAt 0 file offset (part d.classData offset n) }
  | ret {w : DumpWorld} {k : ℕ} {d : Dump} :
      w.dumps[k]? = some d → d.progress = .writing d.classData.length →
      DumpStep w (.ret k) (w.move k d (.returned true))
  -- the operating system reports an error of its own
  | fail {w : DumpWorld} {k : ℕ} {d : Dump} :
      w.dumps[k]? = some d → d.progress.isReturned = false →
      DumpStep w (.fail k) (w.move k d (.returned false))
  -- other programs have files elsewhere
  | others {w : DumpWorld} {tree : FileTree String UInt8} :
      (∀ p, InClasses p → tree.node p = w.tree.node p) → DumpStep w .others { w with tree }

section Paths

variable {stage stage' : DumpStage} {name name' : ClassName}

lemma splitOn_append {α : Type} [BEq α] [LawfulBEq α] {a : α} {ys : List α} (h : a ∉ ys)
    (xs : List α) :
    ∃ parts last, xs.splitOn a = parts ++ [last] ∧ (xs ++ ys).splitOn a = parts ++ [last ++ ys] := by
  induction xs with
  | nil => exact ⟨[], [], rfl, List.splitOn_eq_singleton h⟩
  | cons x xs ih =>
    obtain ⟨parts, last, hxs, hys⟩ := ih
    rw [List.cons_append, List.splitOn_cons_eq_if_modifyHead, List.splitOn_cons_eq_if_modifyHead,
      hxs, hys]
    split
    · exact ⟨[] :: parts, last, rfl, rfl⟩
    · cases parts with
      | nil => exact ⟨[], x :: last, rfl, rfl⟩
      | cons part parts => exact ⟨(x :: part) :: parts, last, rfl, rfl⟩

def HasDot (n : String) : Prop := '.' ∈ n.toList

lemma components_class (name : ClassName) :
    PathBuf.components (name.text ++ ".class") =
      (((name.text ++ ".class").toList.splitOn '/').map String.ofList).reverse ∧
    ∃ n p, PathBuf.components (name.text ++ ".class") = n :: p ∧ HasDot n ∧ ∀ m ∈ p, ¬ HasDot m := by
  obtain ⟨parts, last, hname, hfile⟩ :=
    splitOn_append (by decide : '/' ∉ ".class".toList) name.text.toList
  have hvalid := name.valid
  rw [hname] at hvalid
  have hkeep : ∀ part ∈ parts ++ [last ++ ".class".toList],
      decide (part ≠ [] ∧ part ≠ ['.']) = true := by
    intro part hp
    rw [decide_eq_true_iff]
    rcases List.mem_append.mp hp with hp | hp
    · obtain ⟨hne, hdot, -⟩ := hvalid part (List.mem_append_left _ hp)
      refine ⟨hne, ?_⟩
      rintro rfl
      exact hdot (List.mem_singleton_self _)
    · obtain rfl := List.mem_singleton.mp hp
      refine ⟨by simp, fun h => ?_⟩
      simpa using congrArg List.length h
  have hcomponents : PathBuf.components (name.text ++ ".class") =
      (((name.text ++ ".class").toList.splitOn '/').map String.ofList).reverse := by
    rw [PathBuf.components, String.toList_append, hfile, List.filter_eq_self.mpr hkeep]
  refine ⟨hcomponents, String.ofList (last ++ ".class".toList),
    (parts.map String.ofList).reverse, ?_, ?_, ?_⟩
  · rw [hcomponents, String.toList_append, hfile]
    simp
  · simp [HasDot]
  · intro m hm
    obtain ⟨part, hp, rfl⟩ := List.mem_map.mp (List.mem_reverse.mp hm)
    rw [HasDot, String.toList_ofList]
    exact (hvalid part (List.mem_append_left _ hp)).2.1

lemma head_class (name : ClassName) : (name.text ++ ".class").toList.head? ≠ some '/' := by
  have hvalid := name.valid
  rw [String.toList_append]
  cases ht : name.text.toList with
  | nil => decide
  | cons c cs =>
    intro h
    obtain rfl : c = '/' := Option.some.inj h
    rw [ht, List.splitOn_cons_eq_if_modifyHead, if_pos (by simp)] at hvalid
    exact (hvalid [] List.mem_cons_self).1 rfl

lemma dumpPath_eq (stage : DumpStage) (name : ClassName) : dumpPath stage.dir name.text =
    ⟨false, PathBuf.components (name.text ++ ".class") ++ PathBuf.components stage.dir⟩ := by
  have hdir : stage.dir.toList.head? ≠ some '/' := by cases stage <;> decide
  rw [dumpPath, PathBuf.push, if_neg (head_class name), PathBuf.push, if_neg hdir]
  simp [PathBuf.new]

lemma components_dir (stage : DumpStage) :
    ∃ n, PathBuf.components stage.dir = [n, "classes"] ∧ ¬ HasDot n := by
  cases stage with
  | beforeInstr => exact ⟨"before_instr", by decide, by unfold HasDot; decide⟩
  | afterInstr => exact ⟨"after_instr", by decide, by unfold HasDot; decide⟩

lemma inClasses_of_suffix {p q : List String} {n : String} (hp : InClasses p)
    (hq : n :: q <:+ p) : InClasses (n :: q) :=
  List.suffix_of_suffix_length_le hp hq (by simp)

lemma dumpPath_file (stage : DumpStage) (name : ClassName) :
    ∃ n p, (dumpPath stage.dir name.text).names = n :: p ∧ HasDot n ∧ InClasses (n :: p) ∧
      FileTree.Enterable InClasses HasDot p := by
  obtain ⟨-, n, p, hname, hn, hp⟩ := components_class name
  obtain ⟨m, hdir, hm⟩ := components_dir stage
  have hin : InClasses (p ++ [m, "classes"]) := ⟨p ++ [m], by simp⟩
  refine ⟨n, p ++ [m, "classes"], ?_, hn, hin.trans (List.suffix_cons ..), fun x q hq => ?_⟩
  · rw [dumpPath_eq, hname, hdir, List.cons_append]
  · refine ⟨inClasses_of_suffix hin hq, ?_⟩
    rcases List.mem_append.mp (hq.subset List.mem_cons_self) with hx | hx
    · exact hp x hx
    · rcases List.mem_pair.mp hx with rfl | rfl
      · exact hm
      · unfold HasDot
        decide

lemma dumpPath_injective
    (h : dumpPath stage.dir name.text = dumpPath stage'.dir name'.text) :
    stage = stage' ∧ name.text = name'.text := by
  rw [dumpPath_eq, dumpPath_eq, PathBuf.mk.injEq] at h
  have hlen : (PathBuf.components stage.dir).length = (PathBuf.components stage'.dir).length := by
    obtain ⟨n, hn, -⟩ := components_dir stage
    obtain ⟨n', hn', -⟩ := components_dir stage'
    rw [hn, hn']
    rfl
  obtain ⟨hname, hdir⟩ := List.append_inj' h.2 hlen
  constructor
  · revert hdir
    cases stage <;> cases stage' <;> decide
  · rw [(components_class name).1, (components_class name').1] at hname
    have hsplit := List.map_injective_iff.mpr (fun _ _ h => String.ofList_inj.mp h)
      (List.reverse_injective hname)
    have hfile : (name.text ++ ".class").toList = (name'.text ++ ".class").toList := by
      have hjoin := congrArg (['/'].intercalate ·) hsplit
      simpa only [List.intercalate_splitOn] using hjoin
    rw [String.toList_append, String.toList_append] at hfile
    exact String.toList_inj.mp (List.append_cancel_right hfile)

end Paths

end PhasicJ.AgentJvm
