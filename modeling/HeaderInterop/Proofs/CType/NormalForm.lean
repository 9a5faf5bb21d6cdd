import HeaderInterop.Proofs.CType.Grammar
import HeaderInterop.Proofs.CType.Lexemes

/-!
Normal form. A phrase read from proper tokens is normal: a qualifying step follows a pointer at
once, so no declarator puts a qualifier around an array or a function.
-/

namespace HeaderInterop.CType

theorem qualify_normal {isConst isVolatile : Bool} {type : CType}
    (hqualifiable : type.isQualifiable = true) (hnormal : type.isNormal = true) :
    (qualify isConst isVolatile type).isNormal = true := by
  unfold qualify
  split
  · simp [isNormal, hqualifiable, hnormal]
  · exact hnormal

/-! Specifiers -/

/-- What has been read may stand at the base of a type. -/
def Specifiers.Normal (found : Specifiers) : Prop :=
  ∀ base ∈ found.base, base.isQualifiable = true ∧ base.isNormal = true

theorem TagKind.type_normal {kind : TagKind} {name : Option String}
    (hname : name.all isTagName = true) :
    (kind.type name).isQualifiable = true ∧ (kind.type name).isNormal = true := by
  cases kind <;> simp [TagKind.type, isQualifiable, isNormal, hname]

theorem tagName?_proper {token : Token} {name : Option String} (h : tagName? token = some name)
    (htoken : token.isProper = true) : name.all isTagName = true := by
  cases token with
  | ident word =>
    obtain rfl : some word = name := Option.some.inj h
    exact htoken
  | anonymous phrase =>
    obtain rfl : none = name := Option.some.inj h
    rfl
  | _ => simp [tagName?] at h

theorem readSpecifiers_normal {found found' : Specifiers} {tokens rest : List Token}
    (h : readSpecifiers found tokens = .ok (found', rest)) (hfound : found.Normal)
    (htokens : tokens.all Token.isProper = true) : found'.Normal := by
  fun_induction readSpecifiers found tokens
  case case1 ih | case2 ih | case3 ih | case7 ih =>
    exact ih h hfound (Bool.and_eq_true_iff.mp htokens).2
  case case4 | case6 => simp at h
  case case5 hname ih =>
    simp only [List.all_cons, Bool.and_eq_true] at htokens
    refine ih h ?_ htokens.2.2
    rintro base ⟨⟩
    exact TagKind.type_normal (tagName?_proper hname htokens.2.1)
  case case8 found word rest hword hfree ih =>
    simp only [List.all_cons, Bool.and_eq_true] at htokens
    refine ih h ?_ htokens.2
    rintro base ⟨⟩
    have hproper : isTagName word = true := htokens.1
    simp [isQualifiable, isNormal, isTypedefName, hproper, hword]
  case case9 | case10 =>
    simp only [Except.ok.injEq, Prod.mk.injEq] at h
    exact h.1 ▸ hfound

theorem specified_normal {tokens rest : List Token} {type : CType}
    (h : specified tokens = .ok (type, rest)) (htokens : tokens.all Token.isProper = true) :
    type.isNormal = true := by
  simp only [specified, except_bind_eq_ok, except_pure_eq_ok, Prod.exists, Prod.mk.injEq] at h
  obtain ⟨found, rest, hread, _, htype, rfl, rfl⟩ := h
  have hfound : found.Normal := readSpecifiers_normal hread (by rintro base ⟨⟩) htokens
  unfold Specifiers.type at htype
  split at htype
  next base hbase _ =>
    obtain rfl := Except.ok.inj htype
    obtain ⟨hqualifiable, hnormal⟩ := hfound base hbase
    exact qualify_normal hqualifiable hnormal
  next => simp at htype
  next => simp at htype
  next =>
    split at htype
    · obtain rfl := Except.ok.inj htype
      exact qualify_normal rfl rfl
    · simp at htype

/-! Declarators -/

@[simp] theorem applySteps_nil (type : CType) : applySteps [] type = type := rfl

@[simp] theorem applySteps_cons (step : Step) (steps : List Step) (type : CType) :
    applySteps (step :: steps) type = applySteps steps (step.apply type) := rfl

theorem applySteps_append (steps steps' : List Step) (type : CType) :
    applySteps (steps ++ steps') type = applySteps steps' (applySteps steps type) := by
  simp [applySteps]

/-- Steps that keep types normal, whatever type they are applied to. -/
def KeepsNormal (steps : List Step) : Prop :=
  ∀ type : CType, type.isNormal = true → (applySteps steps type).isNormal = true

theorem KeepsNormal.nil : KeepsNormal [] := fun _ h => h

theorem KeepsNormal.append {steps steps' : List Step} (h : KeepsNormal steps)
    (h' : KeepsNormal steps') : KeepsNormal (steps ++ steps') := by
  intro type htype
  rw [applySteps_append]
  exact h' _ (h _ htype)

/-- A qualifying step keeps a type normal only right behind the pointer that it qualifies. -/
theorem KeepsNormal.pointer (isConst isVolatile : Bool) :
    KeepsNormal (.pointer :: qualifySteps isConst isVolatile) := by
  intro type htype
  cases isConst <;> cases isVolatile <;>
    simp [qualifySteps, Qualifier.ofFlags?, applySteps, Step.apply, isNormal, isQualifiable, htype]

theorem KeepsNormal.reverse {steps : List Step} (h : ∀ step ∈ steps, KeepsNormal [step]) :
    KeepsNormal steps.reverse := by
  induction steps with
  | nil => exact .nil
  | cons step steps ih =>
    rw [List.reverse_cons]
    exact (ih fun s hs => h s (by simp [hs])).append (h step (by simp))

theorem readPointers_normal (tokens : List Token) : KeepsNormal (readPointers tokens).1 := by
  fun_induction readPointers tokens with
  | case1 rest flags more ih => exact (KeepsNormal.pointer flags.1 flags.2.1).append ih
  | case2 => exact .nil

theorem dropVoid_normal {params : List CType} (h : allNormal params = true) :
    isLoneVoid (dropVoid params) = false ∧ allNormal (dropVoid params) = true := by
  unfold dropVoid
  split
  · simp [isLoneVoid, allNormal]
  · next hvoid =>
    refine ⟨?_, h⟩
    unfold isLoneVoid
    split <;> simp_all

/-! Phrases -/

def Phrase.Normal : Phrase → Prop
  | .type found => found.isNormal = true
  | .declarator steps => KeepsNormal steps
  | .suffixes steps => ∀ step ∈ steps, KeepsNormal [step]
  | .params types _ => allNormal types = true

theorem all_of_isSuffix {tokens rest : List Token} (h : rest <:+ tokens)
    (htokens : tokens.all Token.isProper = true) : rest.all Token.isProper = true :=
  List.all_eq_true.mpr fun token ht => List.all_eq_true.mp htokens token (h.subset ht)

theorem Reads.normal {tokens rest : List Token} {phrase : Phrase} (h : Reads tokens phrase rest)
    (htokens : tokens.all Token.isProper = true) : phrase.Normal := by
  induction h with
  | type head tail ih =>
    exact ih (all_of_isSuffix (specified_isSuffix head) htokens) _ (specified_normal head htokens)
  | @plain tokens mid rest pointers suffixes head _ _ ih =>
    have hpointers : KeepsNormal pointers := by
      simpa [head] using readPointers_normal tokens
    exact hpointers.append (.reverse (ih (all_of_isSuffix (readPointers_isSuffix head) htokens)))
  | @grouped tokens inside mid rest pointers nested suffixes head _ group _ ihg ih =>
    have hpointers : KeepsNormal pointers := by
      simpa [head] using readPointers_normal tokens
    have hsuffix := (List.suffix_cons _ _).trans (readPointers_isSuffix head)
    have hinside := all_of_isSuffix hsuffix htokens
    have hmid := all_of_isSuffix ((List.suffix_cons _ _).trans group.isSuffix) hinside
    exact (hpointers.append (.reverse (ih hmid))).append (ihg hinside)
  | stop => simp [Phrase.Normal]
  | sized _ ih =>
    simp only [List.all_cons, Bool.and_eq_true] at htokens
    refine List.forall_mem_cons.mpr ⟨?_, ih htokens.2.2.2⟩
    intro type htype
    simpa [applySteps, Step.apply, isNormal, htype, Token.isProper] using htokens.2.1
  | unsized _ ih =>
    simp only [List.all_cons, Bool.and_eq_true] at htokens
    refine List.forall_mem_cons.mpr ⟨?_, ih htokens.2.2⟩
    intro type htype
    simp [applySteps, Step.apply, isNormal, htype]
  | noParams _ ih =>
    simp only [List.all_cons, Bool.and_eq_true] at htokens
    refine List.forall_mem_cons.mpr ⟨?_, ih htokens.2.2⟩
    intro type htype
    simp [applySteps, Step.apply, isNormal, isLoneVoid, allNormal, htype]
  | someParams list _ ihl ih =>
    simp only [List.all_cons, Bool.and_eq_true] at htokens
    refine List.forall_mem_cons.mpr ⟨?_, ih (all_of_isSuffix list.isSuffix htokens.2)⟩
    intro type htype
    have hparams := dropVoid_normal (ihl htokens.2)
    simp [applySteps, Step.apply, isNormal, hparams.1, hparams.2, htype]
  | lastParam _ ih => simpa [Phrase.Normal, allNormal] using ih htokens
  | param head _ ihh ih =>
    have hmid := all_of_isSuffix ((List.suffix_cons _ _).trans head.isSuffix) htokens
    exact Bool.and_eq_true_iff.mpr ⟨ihh htokens, ih hmid⟩
  | lastDots => rfl
  | dots _ ih =>
    simp only [List.all_cons, Bool.and_eq_true] at htokens
    exact ih htokens.2.2

theorem parse_eq_ok_iff {text : String} {type : CType} :
    parse text = .ok type ↔
      ∃ tokens, tokenize text.toList = .ok tokens ∧ Reads tokens (.type type) [] := by
  simp only [parse, except_mapError_eq_ok, except_bind_method_eq_ok]
  simp [ofTokens_eq_ok_iff]

theorem normal_of_parse {text : String} {type : CType} (h : parse text = .ok type) :
    type.isNormal = true := by
  obtain ⟨tokens, htokens, hreads⟩ := parse_eq_ok_iff.mp h
  exact hreads.normal (isProper_of_tokenize htokens)

end HeaderInterop.CType
