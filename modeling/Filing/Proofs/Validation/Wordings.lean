import Filing.Proofs.Text.Numbers
import Filing.Proofs.Validation.Accounting

/-!
# How messages begin

Issues of different kinds are told apart by the first words of their messages, whatever ids, paths
and values come after them. So the issues of a kind can be picked out of a report.
-/

namespace Filing

/-- The text begins with one of several wordings. -/
def beginsWith (wordings : List String) (text : String) : Bool :=
  wordings.any (·.toList.isPrefixOf text.toList)

/-- No wording of one list is the beginning of one of the other. -/
def AreApart (ws vs : List String) : Prop :=
  ∀ w ∈ ws, ∀ v ∈ vs, w.toList.isPrefixOf v.toList = false ∧ v.toList.isPrefixOf w.toList = false

instance (ws vs : List String) : Decidable (AreApart ws vs) :=
  inferInstanceAs (Decidable (∀ w ∈ ws, ∀ v ∈ vs,
    w.toList.isPrefixOf v.toList = false ∧ v.toList.isPrefixOf w.toList = false))

section

variable {ws vs : List String} {text : String}

theorem beginsWith_iff : beginsWith ws text = true ↔ ∃ w ∈ ws, w.toList <+: text.toList := by
  rw [beginsWith, List.any_eq_true]
  exact exists_congr fun w => and_congr_right' List.isPrefixOf_iff_prefix

theorem beginsWith_append (h : beginsWith ws text = true) (rest : String) :
    beginsWith ws (text ++ rest) = true := by
  obtain ⟨w, hw, hprefix⟩ := beginsWith_iff.1 h
  refine beginsWith_iff.2 ⟨w, hw, ?_⟩
  rw [String.toList_append]
  exact hprefix.trans (List.prefix_append _ _)

/-- Of two beginnings of one text, one begins the other. -/
theorem beginsWith_of_areApart (htext : beginsWith ws text = true) (hapart : AreApart ws vs) :
    beginsWith vs text = false := by
  by_contra hother
  obtain ⟨w, hw, hprefix⟩ := beginsWith_iff.1 htext
  obtain ⟨v, hv, hother⟩ := beginsWith_iff.1 (Bool.not_eq_false _ ▸ hother)
  obtain ⟨hwv, hvw⟩ := hapart w hw v hv
  rcases List.prefix_or_prefix_of_prefix hprefix hother with h | h
  · exact Bool.eq_false_iff.1 hwv (List.isPrefixOf_iff_prefix.2 h)
  · exact Bool.eq_false_iff.1 hvw (List.isPrefixOf_iff_prefix.2 h)

theorem beginsWith_append_of_areApart (hapart : AreApart [text] vs) (rest : String) :
    beginsWith vs (text ++ rest) = false := by
  have htext : beginsWith [text] text = true :=
    beginsWith_iff.2 ⟨text, List.mem_singleton_self text, List.prefix_rfl⟩
  exact beginsWith_of_areApart (beginsWith_append htext rest) hapart

end

/-! ## Single values -/

theorem beginsWith_lengthComplaints {f : Field} {value : String} :
    ∀ m ∈ lengthComplaints f value, beginsWith ["value has "] m = true := by
  unfold lengthComplaints
  dsimp only [toString]
  simp only [String.append_assoc]
  split
  · exact forall_mem_ite_singleton (beginsWith_append (by decide) _)
  · exact List.forall_mem_nil _

theorem Decimal.isDigit_of_mem_text {d : Decimal} {c : Char} (hc : c ∈ d.text.toList) :
    c.isDigit = true ∨ c = '-' ∨ c = '.' := by
  have hpadded : ∀ c ∈ Text.padded (d.scale + 1) d.mantissa, c.isDigit = true :=
    fun c hc => Text.isDigit_of_mem_padded hc
  unfold Decimal.text at hc
  dsimp only at hc
  rw [String.toList_ofList] at hc
  rcases List.mem_append.1 hc with hmem | hfraction
  · rcases List.mem_append.1 hmem with hsign | hwhole
    · split at hsign
      · exact .inr (.inl (List.mem_singleton.1 hsign))
      · exact absurd hsign List.not_mem_nil
    · exact .inl (hpadded c (List.mem_of_mem_take hwhole))
  · split at hfraction
    · exact absurd hfraction List.not_mem_nil
    · rcases List.mem_cons.1 hfraction with hpoint | hplace
      · exact .inr (.inr hpoint)
      · exact .inl (hpadded c (List.mem_of_mem_drop hplace))

/-- What is said about a number begins with its digits, and so not with a letter. -/
theorem Decimal.beginsWith_text_append (d : Decimal) {w : String}
    (hw : w.toList.head? = some ' ') (rest : String) :
    beginsWith ["required field '"] (d.text ++ (w ++ rest)) = false := by
  by_contra hbegins
  obtain ⟨v, hv, more, hmore⟩ := beginsWith_iff.1 (Bool.not_eq_false _ ▸ hbegins)
  have hletter : some 'r' = (d.text.toList ++ (w.toList ++ rest.toList)).head? := by
    rw [← String.toList_append, ← String.toList_append, ← hmore, List.mem_singleton.1 hv]
    rfl
  rw [List.head?_append, List.head?_append, hw] at hletter
  cases htext : d.text.toList with
  | nil =>
    rw [htext] at hletter
    exact absurd (Option.some.inj hletter) (by decide)
  | cons c cs =>
    rw [htext] at hletter
    obtain rfl : 'r' = c := Option.some.inj hletter
    have hmem : 'r' ∈ d.text.toList := htext ▸ List.mem_cons_self
    rcases Decimal.isDigit_of_mem_text hmem with h | h | h
    all_goals exact absurd h (by decide)

/-- The complaints about the form of a value are in other words than those about a missing one. -/
theorem beginsWith_formComplaints {formats : List String} {f : Field} {value : String} :
    ∀ m ∈ formComplaints formats f value, beginsWith ["required field '"] m = false := by
  have hquoted : ∀ rest, beginsWith ["required field '"] ("'" ++ rest) = false :=
    fun rest => beginsWith_append_of_areApart (by decide) rest
  have hbound : ∀ (d : Decimal) (rest : String),
      beginsWith ["required field '"] (d.text ++ (" is below the minimum " ++ rest)) = false ∧
        beginsWith ["required field '"] (d.text ++ (" is above the maximum " ++ rest)) = false :=
    fun d rest => ⟨d.beginsWith_text_append (by decide) rest,
      d.beginsWith_text_append (by decide) rest⟩
  unfold formComplaints
  dsimp only [toString]
  simp only [String.append_assoc]
  split
  case h_1 => exact forall_mem_ite_nil (hquoted _)
  case h_2 =>
    -- all complaints quote the value, but for those about the bounds of a number
    split
    · exact List.forall_mem_singleton.2 (hquoted _)
    · rw [List.forall_mem_append]
      constructor
      · split
        · exact forall_mem_ite_singleton (hbound _ _).1
        · exact List.forall_mem_nil _
      · split
        · exact forall_mem_ite_singleton (hbound _ _).2
        · exact List.forall_mem_nil _
  case h_3 => exact forall_mem_ite_nil (hquoted _)
  case h_4 => exact forall_mem_ite_nil (hquoted _)
  case h_5 => exact List.forall_mem_nil _

/-! ## The template -/

/-- How the issues of a template begin. -/
def templateWordings : List String := ["field", "depend", "duplicate ", "dynamic sections "]

theorem beginsWith_message (defect : TemplateDefect) :
    beginsWith templateWordings defect.message = true := by
  unfold TemplateDefect.message
  cases defect
  case cycle chain => exact beginsWith_append (by decide) _
  all_goals
    dsimp only [toString]
    simp only [String.append_assoc]
    exact beginsWith_append (by decide) _

theorem Template.beginsWith_issues (t : Template) :
    ∀ i ∈ t.issues, beginsWith templateWordings i.message = true := by
  have hdefect : ∀ field path (defect : TemplateDefect),
      beginsWith templateWordings (defect.issue field path).message = true :=
    fun _ _ defect => beginsWith_message defect
  have hfields : ∀ i ∈ t.fieldsIssues, beginsWith templateWordings i.message = true := by
    refine forall_fieldsIssues hdefect fun field path id selected => ?_
    dsimp only [toString]
    simp only [String.append_assoc]
    exact beginsWith_append (by decide) _
  unfold issues
  rw [List.forall_mem_append, List.forall_mem_append, List.forall_mem_append]
  exact ⟨⟨⟨forall_dependencyIssues hdefect, hfields⟩, forall_pathIssues hdefect⟩,
    forall_tableIssues hdefect⟩

/-! ## The data -/

section

variable {f : Field} {value : Option String} {place : String}

theorem beginsWith_missingIssues :
    ∀ i ∈ missingIssues f value place, beginsWith ["required field '"] i.message = true := by
  unfold missingIssues
  dsimp only [toString]
  simp only [String.append_assoc]
  refine forall_mem_ite_singleton ?_
  exact beginsWith_append (by decide) _

theorem beginsWith_parentIssues {t : Template} {g : DependencyGraph}
    {parentValue : Field → Option (Option String)} :
    ∀ i ∈ parentIssues t g parentValue f value place, beginsWith ["'"] i.message = true := by
  unfold parentIssues
  dsimp only [toString]
  simp only [String.append_assoc]
  split
  · split
    · split
      · refine forall_mem_ite_nil ?_
        exact beginsWith_append (by decide) _
      · exact List.forall_mem_nil _
    · exact List.forall_mem_nil _
  · exact List.forall_mem_nil _

end

namespace FormData

variable {s : Settings} {t : Template} {d : FormData}

theorem beginsWith_formIssues :
    ∀ i ∈ d.formIssues t, beginsWith ["instance belongs to form '"] i.message = true := by
  unfold formIssues
  dsimp only [toString]
  simp only [String.append_assoc]
  refine forall_mem_ite_singleton ?_
  exact beginsWith_append (by decide) _

theorem beginsWith_lengthIssues {e : String × Table} :
    ∀ i ∈ d.lengthIssues e, beginsWith ["table '"] i.message = true := by
  unfold lengthIssues
  dsimp only [toString]
  simp only [String.append_assoc]
  refine forall_mem_ite_singleton ?_
  exact beginsWith_append (by decide) _

theorem beginsWith_strayKeyIssues {table : Table} {r : Row × Nat} : ∀ i ∈ strayKeyIssues s table r,
    beginsWith ["row value for unknown path '"] i.message = true := by
  intro i hi
  obtain ⟨key, -, rfl⟩ := List.mem_map.1 hi
  dsimp only [toString, unknownIssue]
  simp only [String.append_assoc]
  exact beginsWith_append (by decide) _

end FormData

end Filing
