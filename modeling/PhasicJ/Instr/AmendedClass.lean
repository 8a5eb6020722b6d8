import PhasicJ.Instr.AmendedMembers

/-! The members of an amended class are the right ones, and refer only to members that it has. -/

namespace PhasicJ.Instr

open MethodInstrumenter

lemma nodup_append_iff {α : Type} {own added : List α} (hd : ∀ x ∈ own, x ∉ added)
    (ha : added.Nodup) : (own ++ added).Nodup ↔ own.Nodup := by
  rw [List.nodup_append]
  constructor
  · exact And.left
  · intro ho
    refine ⟨ho, ha, ?_⟩
    rintro x hx _ hy rfl
    exact hd x hx hy

namespace MonitorInsnInstrumenter

section References

variable {i : MonitorInsnInstrumenter} {m : MethodMember}

lemma mem_accept {eventHandlerClass : String} {body : List MethodEvent} {e : MethodEvent} :
    e ∈ accept eventHandlerClass body ↔
      e ∈ body ∨ ∃ d ∈ body, monitorCall eventHandlerClass d = some e := by
  rw [accept_eq, Code.splice, List.mem_flatMap]
  constructor
  · rintro ⟨d, hd, he⟩
    rcases List.mem_append.mp he with he | he
    · exact .inr ⟨d, hd, Option.mem_toList.mp he⟩
    · exact .inl (List.mem_singleton.mp he ▸ hd)
  · rintro (he | ⟨d, hd, he⟩)
    · exact ⟨e, he, by simp⟩
    · exact ⟨d, hd, List.mem_append_left _ (Option.mem_toList.mpr he)⟩

lemma classNames_visitMethod {name : String} (h : name ∈ (i.visitMethod m).classNames) :
    name ∈ m.classNames ∨ name = i.eventHandlerClass ∧ ∃ e ∈ m.body, e.isMonitor := by
  rw [MethodMember.classNames, List.mem_append] at h ⊢
  rcases h with h | h
  · exact .inl (.inl h)
  · obtain ⟨e, he, hn⟩ := List.mem_flatMap.mp h
    rcases mem_accept.mp he with he | ⟨d, hd, hc⟩
    · exact .inl (.inr (List.mem_flatMap.mpr ⟨e, he, hn⟩))
    · refine .inr ⟨?_, d, hd, ?_⟩
      · rcases monitorCall_eq hc with ⟨-, rfl⟩ | ⟨-, rfl⟩ <;> exact List.mem_singleton.mp hn
      · rw [← monitorCall_isSome i.eventHandlerClass, hc]
        rfl

lemma memberRefs_visitMethod {r : MemberRef} (h : r ∈ m.memberRefs) :
    r ∈ (i.visitMethod m).memberRefs := by
  obtain ⟨e, he, hr⟩ := List.mem_flatMap.mp h
  exact List.mem_flatMap.mpr ⟨e, mem_accept.mpr (.inl he), hr⟩

end References

variable (eventHandlerClass : String) (args : List AmendmentArgs) (cls : ClassFile)

def isInitializer (m : MethodMember) : Bool := m.name = "<init>" || m.name = "<clinit>"

/-- The instrumented class has its own members and then the prefixed members of its amendments,
which refer to members that the class has. -/
structure Amended : Prop where
  fields : ((create eventHandlerClass args).instrument cls).fields =
    cls.fields ++ (targeting args cls.name).flatMap fun a =>
      a.prefixed.fields.map (FieldMember.remap a.remapper)
  methods : ((create eventHandlerClass args).instrument cls).methods =
    cls.methods.map (create eventHandlerClass args).visitMethod ++
      (targeting args cls.name).flatMap fun a =>
        a.prefixed.methods.map (emittedMethod eventHandlerClass a)
  initializers : (∀ a ∈ targeting args cls.name, ¬ startsWith "<init>" a.amendmentMembersPrefix ∧
      ¬ startsWith "<clinit>" a.amendmentMembersPrefix) →
    ((create eventHandlerClass args).instrument cls).methods.filter isInitializer =
      (cls.methods.filter isInitializer).map (create eventHandlerClass args).visitMethod
  unique_fields :
    (∀ a ∈ targeting args cls.name, ∀ f ∈ cls.fields, ¬ startsWith f.name a.amendmentMembersPrefix) →
    ((targeting args cls.name).flatMap fun a =>
      a.prefixed.fields.map fun f => (f.name, f.descriptor.remap a.remapper)).Nodup →
    ((((create eventHandlerClass args).instrument cls).fields.map FieldMember.key).Nodup ↔
      (cls.fields.map FieldMember.key).Nodup)
  unique_methods :
    (∀ a ∈ targeting args cls.name, ∀ m ∈ cls.methods,
      ¬ startsWith m.name a.amendmentMembersPrefix) →
    ((targeting args cls.name).flatMap fun a =>
      a.prefixed.methods.map fun m => (m.name, m.descriptor.remap a.remapper)).Nodup →
    ((((create eventHandlerClass args).instrument cls).methods.map MethodMember.key).Nodup ↔
      (cls.methods.map MethodMember.key).Nodup)
  renamed : ∀ a ∈ targeting args cls.name, a.amendWithClassName ≠ a.classToAmend →
    (∀ f ∈ a.prefixed.fields, a.amendWithClassName ∉ (f.remap a.remapper).classNames) ∧
    ∀ m ∈ a.prefixed.methods,
      (eventHandlerClass = a.amendWithClassName → ∀ e ∈ m.body, e.isMonitor = false) →
      a.amendWithClassName ∉ (emittedMethod eventHandlerClass a m).classNames
  resolved : ∀ a ∈ targeting args cls.name, a.SelfContained →
    (∀ f ∈ a.prefixed.fields, ∀ r ∈ f.memberRefs, r.owner = .object a.amendWithClassName →
      r.remap a.remapper ∈ (f.remap a.remapper).memberRefs ∧
      ((create eventHandlerClass args).instrument cls).Declares (r.remap a.remapper)) ∧
    ∀ m ∈ a.prefixed.methods, ∀ r ∈ m.memberRefs, r.owner = .object a.amendWithClassName →
      r.remap a.remapper ∈ (emittedMethod eventHandlerClass a m).memberRefs ∧
      ((create eventHandlerClass args).instrument cls).Declares (r.remap a.remapper)

variable {eventHandlerClass args cls} {a : AmendmentArgs}

lemma of_mem_targeting (ha : a ∈ targeting args cls.name) : a ∈ args ∧ cls.name = a.classToAmend := by
  simpa [targeting] using ha

lemma initializers_instrument (hp : ∀ a ∈ targeting args cls.name,
      ¬ startsWith "<init>" a.amendmentMembersPrefix ∧
        ¬ startsWith "<clinit>" a.amendmentMembersPrefix) :
    ((create eventHandlerClass args).instrument cls).methods.filter isInitializer =
      (cls.methods.filter isInitializer).map (create eventHandlerClass args).visitMethod := by
  have hn : ((targeting args cls.name).flatMap fun a =>
      a.prefixed.methods.map (emittedMethod eventHandlerClass a)).filter isInitializer = [] := by
    rw [List.filter_eq_nil_iff]
    intro m hm hi
    obtain ⟨a, ha, hm⟩ := List.mem_flatMap.mp hm
    obtain ⟨n, hn, rfl⟩ := List.mem_map.mp hm
    have hs := a.prefixed_method_name hn
    rcases Bool.or_eq_true_iff.mp hi with hi | hi
    · exact (hp a ha).1 (of_decide_eq_true hi ▸ hs)
    · exact (hp a ha).2 (of_decide_eq_true hi ▸ hs)
  rw [instrument_methods, List.filter_append, hn, List.append_nil, List.filter_map]
  rfl

lemma nodup_prefixed_iff {β : Type} {own : List (String × β)}
    {added : AmendmentArgs → List (String × β)}
    (hp : ∀ a ∈ targeting args cls.name, ∀ k ∈ own, ¬ startsWith k.1 a.amendmentMembersPrefix)
    (ha : ∀ a, ∀ k ∈ added a, startsWith k.1 a.amendmentMembersPrefix)
    (hd : ((targeting args cls.name).flatMap added).Nodup) :
    (own ++ (targeting args cls.name).flatMap added).Nodup ↔ own.Nodup := by
  refine nodup_append_iff ?_ hd
  intro k hk hin
  obtain ⟨a, hmem, hin⟩ := List.mem_flatMap.mp hin
  exact hp a hmem k hk (ha a k hin)

lemma unique_fields_instrument
    (hp : ∀ a ∈ targeting args cls.name, ∀ f ∈ cls.fields,
      ¬ startsWith f.name a.amendmentMembersPrefix)
    (hd : ((targeting args cls.name).flatMap fun a =>
      a.prefixed.fields.map fun f => (f.name, f.descriptor.remap a.remapper)).Nodup) :
    (((create eventHandlerClass args).instrument cls).fields.map FieldMember.key).Nodup ↔
      (cls.fields.map FieldMember.key).Nodup := by
  rw [instrument_fields, List.map_append, List.map_flatMap]
  simp only [List.map_map]
  refine nodup_prefixed_iff ?_ ?_ hd
  · intro a ha k hk
    obtain ⟨f, hf, rfl⟩ := List.mem_map.mp hk
    exact hp a ha f hf
  · intro a k hk
    obtain ⟨f, hf, rfl⟩ := List.mem_map.mp hk
    have hs := a.prefixed_field_name hf
    exact hs

lemma unique_methods_instrument
    (hp : ∀ a ∈ targeting args cls.name, ∀ m ∈ cls.methods,
      ¬ startsWith m.name a.amendmentMembersPrefix)
    (hd : ((targeting args cls.name).flatMap fun a =>
      a.prefixed.methods.map fun m => (m.name, m.descriptor.remap a.remapper)).Nodup) :
    (((create eventHandlerClass args).instrument cls).methods.map MethodMember.key).Nodup ↔
      (cls.methods.map MethodMember.key).Nodup := by
  rw [instrument_methods, List.map_append, List.map_flatMap, List.map_map]
  simp only [List.map_map]
  refine nodup_prefixed_iff ?_ ?_ hd
  · intro a ha k hk
    obtain ⟨m, hm, rfl⟩ := List.mem_map.mp hk
    exact hp a ha m hm
  · intro a k hk
    obtain ⟨m, hm, rfl⟩ := List.mem_map.mp hk
    have hs := a.prefixed_method_name hm
    exact hs

lemma amendWithClassName_notMem_emitted (hr : a.amendWithClassName ≠ a.classToAmend)
    {m : MethodMember}
    (hm : eventHandlerClass = a.amendWithClassName → ∀ e ∈ m.body, e.isMonitor = false) :
    a.amendWithClassName ∉ (emittedMethod eventHandlerClass a m).classNames := by
  intro h
  rcases classNames_visitMethod h with h | ⟨hh, e, he, hi⟩
  · rw [MethodMember.classNames_remap] at h
    exact old_notMem_remap hr _ h
  · obtain ⟨d, hd, rfl⟩ := List.mem_map.mp he
    rw [MethodEvent.isMonitor_remap, hm hh.symm d hd] at hi
    cases hi

lemma declares_instrument (ha : a ∈ targeting args cls.name) {r : MemberRef}
    (h : a.prefixed.Declares r) :
    ((create eventHandlerClass args).instrument cls).Declares (r.remap a.remapper) := by
  obtain ⟨ho, hk⟩ := h
  have hown : (r.remap a.remapper).owner = .object cls.name := by
    rw [MemberRef.remap, ho, (of_mem_targeting ha).2]
    exact congrArg JType.object simpleRemapper_old
  refine ⟨hown, ?_⟩
  rcases r with ⟨owner, name, descriptor | descriptor⟩
  · obtain ⟨f, hf, he⟩ := List.mem_map.mp hk
    refine List.mem_map.mpr ⟨f.remap a.remapper, ?_, ?_⟩
    · rw [instrument_fields]
      exact List.mem_append_right _ (List.mem_flatMap.mpr ⟨a, ha, List.mem_map_of_mem hf⟩)
    · exact congrArg (Prod.map id (JType.remap a.remapper)) he
  · obtain ⟨m, hm, he⟩ := List.mem_map.mp hk
    refine List.mem_map.mpr ⟨emittedMethod eventHandlerClass a m, ?_, ?_⟩
    · rw [instrument_methods]
      exact List.mem_append_right _ (List.mem_flatMap.mpr ⟨a, ha, List.mem_map_of_mem hm⟩)
    · exact congrArg (Prod.map id (MethodDescriptor.remap a.remapper)) he

variable (eventHandlerClass args cls)

theorem instrument_amended : Amended eventHandlerClass args cls where
  fields := instrument_fields ..
  methods := instrument_methods ..
  initializers := initializers_instrument
  unique_fields := unique_fields_instrument
  unique_methods := unique_methods_instrument
  renamed a _ hr := by
    constructor
    · intro f _
      rw [FieldMember.classNames_remap]
      exact old_notMem_remap hr f.classNames
    · intro m _ hm
      exact amendWithClassName_notMem_emitted hr hm
  resolved a ha hs := by
    constructor
    · intro f hf r hr ho
      have hd := hs r (List.mem_append_left _ (List.mem_flatMap.mpr ⟨f, hf, hr⟩)) ho
      refine ⟨?_, declares_instrument ha hd⟩
      rw [FieldMember.memberRefs_remap]
      exact List.mem_map_of_mem hr
    · intro m hm r hr ho
      have hd := hs r (List.mem_append_right _ (List.mem_flatMap.mpr ⟨m, hm, hr⟩)) ho
      refine ⟨memberRefs_visitMethod ?_, declares_instrument ha hd⟩
      rw [MethodMember.memberRefs_remap]
      exact List.mem_map_of_mem hr

theorem instrument_amended_shipped :
    (((create "java/lang/Object" [javaLangObjectAmendment JavaLangObjectAmendment.classFile]).instrument
      objectClass).methods.map MethodMember.key).Nodup ∧
    ((create "java/lang/Object" [javaLangObjectAmendment JavaLangObjectAmendment.classFile]).instrument
      objectClass).Declares
        ⟨.object "java/lang/Object", "phasicj$agent$rt$instrumentationIsEnabled", .inl .boolean⟩ := by
  have h := instrument_amended "java/lang/Object"
    [javaLangObjectAmendment JavaLangObjectAmendment.classFile] objectClass
  refine ⟨(h.unique_methods (by decide) (by decide)).mpr (by decide), ?_⟩
  exact ((h.resolved _ (List.mem_singleton_self _) (by decide)).2
    JavaLangObjectAmendment.enableInstrumentation (by decide)
    ⟨.object JavaLangObjectAmendment.className, "phasicj$agent$rt$instrumentationIsEnabled",
      .inl .boolean⟩ (by decide) rfl).2

def method (parameter : String) : MethodMember :=
  { lockingMethod with
    name := "phasicj$agent$rt$of"
    descriptor := ⟨[.object parameter], .void⟩ }

def collidingAmendment : AmendmentArgs :=
  javaLangObjectAmendment { JavaLangObjectAmendment.classFile with
    methods := [method JavaLangObjectAmendment.className, method "java/lang/Object"] }

def unprefixedAmendment : AmendmentArgs :=
  { javaLangObjectAmendment JavaLangObjectAmendment.classFile with amendmentMembersPrefix := "" }

def misnamedAmendment : AmendmentArgs :=
  { javaLangObjectAmendment JavaLangObjectAmendment.classFile with
    amendWithClassName := "phasicj/agent/rt/Other" }

def selfAmendment : AmendmentArgs :=
  { lockingAmendment with
    amendWithClassName := "java/lang/Object"
    amendWithClass := lockingAmendment.amendment.amendWithClass }

theorem instrument_amended_otherwise :
    "<init>" ∈ (((create "java/lang/Object" [unprefixedAmendment]).instrument
      objectClass).methods.drop objectClass.methods.length).map MethodMember.name ∧
    (collidingAmendment.SelfContained ∧
      (collidingAmendment.prefixed.methods.map MethodMember.key).Nodup ∧
      ¬ (((create "java/lang/Object" [collidingAmendment]).instrument
        objectClass).methods.map MethodMember.key).Nodup) ∧
    (lockingAmendment.SelfContained ∧ JavaLangObjectAmendment.className ∈
      (emittedMethod JavaLangObjectAmendment.className lockingAmendment lockingMethod).classNames) ∧
    (selfAmendment.SelfContained ∧ ∃ m ∈ selfAmendment.prefixed.methods,
      selfAmendment.amendWithClassName ∈
        (emittedMethod "java/lang/Object" selfAmendment m).classNames) ∧
    ∃ m ∈ misnamedAmendment.prefixed.methods,
      ∃ r ∈ (emittedMethod "java/lang/Object" misnamedAmendment m).memberRefs,
        r.owner = .object misnamedAmendment.amendWithClass.name ∧
        ¬ ((create "java/lang/Object" [misnamedAmendment]).instrument objectClass).Declares r := by
  decide

end MonitorInsnInstrumenter

end PhasicJ.Instr
