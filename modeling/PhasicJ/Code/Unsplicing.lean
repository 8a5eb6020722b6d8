import PhasicJ.Code.Splicing

/-! Splicing at most one event before each event can be taken back. -/

namespace PhasicJ.Code

variable {E : Type} (before : E → Option E)

def spliceBefore (code : List E) : List E := splice (fun e => (before e).toList) code

lemma spliceBefore_cons (e : E) (code : List E) :
    spliceBefore before (e :: code) = (before e).toList ++ e :: spliceBefore before code :=
  splice_cons ..

/-- The code without the event that stands directly before each event as `before` asks for it. -/
def unsplice [DecidableEq E] : List E → List E
  | [] => []
  | [e] => [e]
  | c :: e :: code =>
    if before e = some c then unsplice (e :: code) else c :: unsplice (e :: code)

section Inverse

variable {before} (hb : ∀ e c, before e = some c → before c = none)

include hb

lemma before_head_spliceBefore {code : List E} {e : E}
    (h : (spliceBefore before code).head? = some e) : before e = none := by
  cases code with
  | nil => simp [spliceBefore, splice] at h
  | cons d code =>
    rw [spliceBefore_cons] at h
    cases hd : before d with
    | none =>
      obtain rfl : d = e := by simpa [hd] using h
      exact hd
    | some c =>
      obtain rfl : c = e := by simpa [hd] using h
      exact hb d c hd

lemma unsplice_cons_spliceBefore [DecidableEq E] (e : E) (code : List E) :
    unsplice before (e :: spliceBefore before code) =
      e :: unsplice before (spliceBefore before code) := by
  cases hs : spliceBefore before code with
  | nil => rfl
  | cons d rest =>
    have hh : (spliceBefore before code).head? = some d := by rw [hs]; rfl
    have hd : before d = none := before_head_spliceBefore hb hh
    rw [unsplice, if_neg (by simp [hd])]

lemma unsplice_spliceBefore [DecidableEq E] (code : List E) :
    unsplice before (spliceBefore before code) = code := by
  induction code with
  | nil => rfl
  | cons e code ih =>
    have he := unsplice_cons_spliceBefore hb e code
    rw [ih] at he
    rw [spliceBefore_cons]
    cases hc : before e with
    | none => exact he
    | some c =>
      rw [Option.toList_some, List.singleton_append, unsplice, if_pos hc]
      exact he

lemma spliceBefore_copies (n : ℕ) (e : E) :
    spliceBefore before ((before e).toList.flatMap (List.replicate n) ++ [e]) =
      (before e).toList.flatMap (List.replicate (n + 1)) ++ [e] := by
  cases he : before e with
  | none => simp [spliceBefore, splice, he]
  | some c =>
    have hc : spliceBefore before (List.replicate n c) = List.replicate n c := by
      induction n with
      | zero => rfl
      | succ n ih => rw [List.replicate_succ, spliceBefore_cons, hb e c he, ih]; rfl
    calc spliceBefore before ([c].flatMap (List.replicate n) ++ [e])
        = spliceBefore before (List.replicate n c) ++ spliceBefore before [e] := by
          rw [List.flatMap_singleton, spliceBefore, splice_append]
          rfl
      _ = List.replicate n c ++ [c, e] := by rw [hc]; simp [spliceBefore, splice, he]
      _ = [c].flatMap (List.replicate (n + 1)) ++ [e] := by
          rw [List.flatMap_singleton, List.replicate_succ', List.append_assoc]
          rfl

lemma spliceBefore_iterate (n : ℕ) (code : List E) :
    (spliceBefore before)^[n] code =
      code.flatMap fun e => (before e).toList.flatMap (List.replicate n) ++ [e] := by
  induction n with
  | zero =>
    have h₀ : ∀ e, (before e).toList.flatMap (List.replicate 0) = [] := by
      intro e
      exact List.flatMap_eq_nil_iff.mpr fun _ _ => rfl
    simp [h₀]
  | succ n ih =>
    rw [Function.iterate_succ_apply', ih]
    clear ih
    induction code with
    | nil => rfl
    | cons e code ih =>
      rw [List.flatMap_cons, List.flatMap_cons, ← spliceBefore_copies hb, ← ih]
      exact splice_append ..

end Inverse

lemma length_spliceBefore (code : List E) :
    (spliceBefore before code).length = code.length + code.countP fun e => (before e).isSome := by
  induction code with
  | nil => rfl
  | cons e code ih =>
    rw [spliceBefore_cons, List.length_append, List.length_cons, ih, List.length_cons,
      List.countP_cons]
    cases before e <;> simp <;> omega

lemma spliceBefore_eq_self {code : List E} :
    spliceBefore before code = code ↔ ∀ e ∈ code, before e = none := by
  constructor
  · intro h e he
    have hl := length_spliceBefore before code
    rw [h] at hl
    have h₀ : (code.countP fun e => (before e).isSome) = 0 := by omega
    simpa using List.countP_eq_zero.mp h₀ e he
  · intro h
    induction code with
    | nil => rfl
    | cons e code ih =>
      rw [spliceBefore_cons, h e (by simp), ih fun d hd => h d (by simp [hd])]
      rfl

end PhasicJ.Code
