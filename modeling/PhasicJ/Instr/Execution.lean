import PhasicJ.Code.SpliceSimulation
import PhasicJ.Instr.MethodInstrumenter

/-! Executions of a method body and of its instrumentation. -/

namespace PhasicJ.Instr

open Code Transitions

structure Frame (V H : Type) where
  stack : List V
  locals : List V
  heap : H

def Frame.depth {V H : Type} (size : V → ℕ) (f : Frame V H) : ℕ := (f.stack.map size).sum

/-- A Java virtual machine: what each event of a body does to a frame. The frame's heap stands for
all that the application can observe outside of it. An effect is not given the position of its
event, so the return addresses that `jsr` pushes (class files before version 51) are left out. -/
structure Jvm (V H R : Type) where
  effect : MethodEvent → Frame V H → Effect Label V R (Frame V H) → Prop
  instanceOf : String → V → Bool
  metadata : ∀ e f x, e.isMetadata → (effect e f x ↔ x = .next f)

namespace Jvm

variable {V H R : Type}

def label? : MethodEvent → Option Label
  | .label l => some l
  | _ => none

def handler? : MethodEvent → Option (Handler Label (Option String))
  | .tryCatchBlock start stop handler type => some ⟨start, stop, handler, type⟩
  | _ => none

def catches (J : Jvm V H R) (type : Option String) (x : V) : Bool :=
  type.all fun t => J.instanceOf t x

def semantics (J : Jvm V H R) : Semantics MethodEvent Label (Option String) V R (Frame V H) where
  label? := label?
  handler? := handler?
  effect := J.effect
  catches := J.catches
  enter x f := { f with stack := [x] }

/-- The event calls return, pop nothing, push nothing and are not observed. -/
def EventCallsReturn (J : Jvm V H R) (eventHandlerClass : String) : Prop :=
  ∀ e call, MethodInstrumenter.monitorCall eventHandlerClass e = some call →
    ∀ f x, J.effect call f x ↔ x = .next f

lemma silent {J : Jvm V H R} {eventHandlerClass : String}
    (h : J.EventCallsReturn eventHandlerClass) :
    Silent J.semantics (MethodInstrumenter.inserted eventHandlerClass) where
  label e i hi := by
    rcases MethodInstrumenter.monitorCall_eq (Option.mem_toList.mp hi) with ⟨-, rfl⟩ | ⟨-, rfl⟩ <;>
      rfl
  handler e i hi := by
    rcases MethodInstrumenter.monitorCall_eq (Option.mem_toList.mp hi) with ⟨-, rfl⟩ | ⟨-, rfl⟩ <;>
      rfl
  before_label e he := by
    cases e <;> first | rfl | cases he
  effect e i hi f x := h e i (Option.mem_toList.mp hi) f x

end Jvm

namespace MethodInstrumenter

variable {V H R : Type} (eventHandlerClass : String) (body : List MethodEvent)

def place (pc : ℕ) : ℕ := offset (inserted eventHandlerClass) body pc

def embed : Config V R (Frame V H) → Config V R (Frame V H)
  | .running pc f => .running (place eventHandlerClass body pc) f
  | .finished r => .finished r
  | .uncaught x f => .uncaught x f

def expandItem (it : Item MethodEvent (Frame V H)) : List (Item MethodEvent (Frame V H)) :=
  match monitorCall eventHandlerClass it.event with
  | some call => [⟨place eventHandlerClass body it.pc, call, it.frame⟩,
      ⟨place eventHandlerClass body it.pc + 1, it.event, it.frame⟩]
  | none => [⟨place eventHandlerClass body it.pc, it.event, it.frame⟩]

/-- How far the instrumented body is past a configuration of the body: not at all, or it has made
the event call of the monitor instruction that comes next. -/
inductive Ahead : Config V R (Frame V H) → List (Item MethodEvent (Frame V H)) →
    Config V R (Frame V H) → Prop
  | level (d : Config V R (Frame V H)) : Ahead d [] (embed eventHandlerClass body d)
  | called {pc : ℕ} {e call : MethodEvent} (f : Frame V H) :
      body[pc]? = some e → monitorCall eventHandlerClass e = some call →
      Ahead (.running pc f) [⟨place eventHandlerClass body pc, call, f⟩]
        (.running (place eventHandlerClass body pc + 1) f)

def InsertedAt (q : ℕ) : Prop :=
  ∃ pc e, body[pc]? = some e ∧ e.isMonitor ∧ q = place eventHandlerClass body pc

/-- Each executed monitor instruction directly follows its inserted event call, and no other
inserted event call stands directly before that. -/
def CallsBefore (t : List (Item MethodEvent (Frame V H))) : Prop :=
  ∀ xs it ys, t = xs ++ it :: ys → it.event.isMonitor →
    ∃ xs' q call, it.pc = q + 1 ∧ InsertedAt eventHandlerClass body q ∧
      monitorCall eventHandlerClass it.event = some call ∧ xs = xs' ++ [⟨q, call, it.frame⟩] ∧
      ∀ last, xs'.getLast? = some last → ¬ InsertedAt eventHandlerClass body last.pc

/-- Each executed event call that was inserted is directly followed by its monitor instruction, or
the execution stands before that instruction. -/
def MonitorsAfter (t : List (Item MethodEvent (Frame V H))) (d : Config V R (Frame V H)) : Prop :=
  ∀ xs it ys, t = xs ++ it :: ys → InsertedAt eventHandlerClass body it.pc →
    ∃ e, monitorCall eventHandlerClass e = some it.event ∧
      (accept eventHandlerClass body)[it.pc + 1]? = some e ∧
      (ys = [] ∧ d = .running (it.pc + 1) it.frame ∨
        ∃ ys', ys = ⟨it.pc + 1, e, it.frame⟩ :: ys')

variable {eventHandlerClass body}

lemma embed_eq (c : Config V R (Frame V H)) :
    embed eventHandlerClass body c = c.embed (inserted eventHandlerClass) body := by
  cases c <;> rfl

lemma expandItem_eq (it : Item MethodEvent (Frame V H)) :
    expandItem eventHandlerClass body it = expand (inserted eventHandlerClass) body it := by
  simp only [expandItem, expand, insertedItems, movedItem, inserted, place]
  cases monitorCall eventHandlerClass it.event <;> rfl

lemma ahead_of_partway {d d' : Config V R (Frame V H)} {s : List (Item MethodEvent (Frame V H))}
    (h : Partway (inserted eventHandlerClass) body d s d') : Ahead eventHandlerClass body d s d' := by
  cases h with
  | whole => exact embed_eq d ▸ .level d
  | @inserted pc e f j he hj =>
    cases hc : monitorCall eventHandlerClass e with
    | none => simp [inserted, hc] at hj
    | some call =>
      obtain rfl : j = 0 := by simpa [inserted, hc] using hj
      have hi : insertedItems (inserted eventHandlerClass) body ⟨pc, e, f⟩ =
          [⟨place eventHandlerClass body pc, call, f⟩] := by
        simp only [insertedItems, inserted, hc]
        rfl
      rw [hi]
      exact .called f he hc

variable (eventHandlerClass) in
lemma not_inserted {pc : ℕ} {e : MethodEvent} (he : body[pc]? = some e) :
    ¬ InsertedAt eventHandlerClass body
      (place eventHandlerClass body pc + (inserted eventHandlerClass e).length) := by
  rintro ⟨q, e', hq, hm, h⟩
  have hlen : ∀ {x : MethodEvent}, x.isMonitor → (inserted eventHandlerClass x).length = 1 := by
    intro x hx
    rw [← monitorCall_isSome eventHandlerClass] at hx
    obtain ⟨call, hc⟩ := Option.isSome_iff_exists.mp hx
    simp [inserted, hc]
  simp only [place] at h
  rcases lt_trichotomy pc q with hlt | rfl | hgt
  · have := offset_lt (inserted eventHandlerClass) he hlt
    omega
  · obtain rfl := Option.some.inj (he.symm.trans hq)
    rw [hlen hm] at h
    omega
  · have := offset_lt (inserted eventHandlerClass) hq hgt
    have := hlen hm
    omega

end MethodInstrumenter

end PhasicJ.Instr
