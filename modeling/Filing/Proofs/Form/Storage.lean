import Filing.Form.DataFile
import Filing.Proofs.Calendar.YearFirst
import Filing.Proofs.Json.ReadBack
import Filing.Proofs.KeyMaps

/-!
# Stored form data

Form data is encoded as a record, which is stored as a text, and decoded from it again. Each part
has an encoder and a decoder of its own, and decoding undoes encoding: for maps with any keys, for
tables without rows, for every status and every signing date, and also where the signature is left
out because there is none. The record holds nothing but texts, lists and records, so its text is
read as the record.

Main statement: `FormData.ofText?_render_toValue`.
-/

namespace Filing

open Data (Value field? fields?)
open Json (IsPlain)

/-! ## Lists and maps -/

theorem Data.Value.listOf?_list {α : Type} {encode : α → Value} {decode : Value → Option α}
    (h : ∀ a, decode (encode a) = some a) (l : List α) :
    Value.listOf? decode (.list (l.map encode)) = some l :=
  mapM_map_eq_some h l

theorem KeyMap.ofValue?_toValue {β : Type} {encode : β → Value} {decode : Value → Option β}
    (h : ∀ b, decode (encode b) = some b) (m : KeyMap β) :
    KeyMap.ofValue? decode (m.toValue encode) = some m := by
  have hentries : (m.entries.map fun e => (e.1, encode e.2)).mapM
      (fun e => (decode e.2).map (e.1, ·)) = some m.entries := by
    apply mapM_map_eq_some
    intro e
    rw [h]
    rfl
  show ((m.entries.map fun e => (e.1, encode e.2)).mapM
    fun e => (decode e.2).map (e.1, ·)).bind (fun entries => some (KeyMap.ofList entries)) = some m
  rw [hentries, Option.bind_some, KeyMap.ofList_entries]

theorem Data.Value.string?_string (s : String) : Value.string? (.string s) = some s := rfl

theorem Row.ofValue?_toValue (r : Row) : Row.ofValue? r.toValue = some r :=
  KeyMap.ofValue?_toValue Value.string?_string r

/-! ## Status and signature -/

theorem Status.ofValue?_name (s : Status) : Status.ofValue? (.string s.name) = some s :=
  s.ofName?_name

theorem Signature.ofValue?_toValue (s : Signature) : Signature.ofValue? s.toValue = some s := by
  have hfields : fields? formDataShape ["signer", "date"] s.toValue =
      some [some (.string s.signer), some (.string s.date.isoText)] := rfl
  rw [Signature.ofValue?, hfields]
  show (Calendar.readDate? Calendar.isoFormat s.date.isoText).map _ = some s
  rw [Calendar.readDate?_isoText]
  rfl

theorem optionalSignature?_toValue (s : Signature) :
    optionalSignature? s.toValue = some (some s) := by
  show (Signature.ofValue? s.toValue).map some = some (some s)
  rw [Signature.ofValue?_toValue]
  rfl

/-! ## Form data -/

namespace FormData

/-- The members of a record of form data, an absent signature being left out. -/
theorem fields?_toValue (d : FormData) :
    fields? formDataShape ["formCode", "templateVersion", "values", "rows", "signature", "status"]
      d.toValue =
    some [some (.string d.formCode), some (.string d.templateVersion),
      some (d.values.toValue .string),
      some (d.tables.toValue fun rows => .list (rows.map Row.toValue)),
      d.signature.map Signature.toValue, some (.string d.status.name)] := by
  unfold toValue
  cases d.signature with
  | none => rfl
  | some s => rfl

theorem field?_signature (s : Option Signature) :
    field? optionalSignature? none (s.map Signature.toValue) = some s := by
  cases s with
  | none => rfl
  | some s => exact optionalSignature?_toValue s

theorem ofValue?_toValue (d : FormData) : ofValue? d.toValue = some d := by
  have hvalues : KeyMap.ofValue? Value.string? (d.values.toValue .string) = some d.values :=
    KeyMap.ofValue?_toValue Value.string?_string d.values
  have htables : KeyMap.ofValue? (Value.listOf? Row.ofValue?)
      (d.tables.toValue fun rows => .list (rows.map Row.toValue)) = some d.tables :=
    KeyMap.ofValue?_toValue (Value.listOf?_list Row.ofValue?_toValue) d.tables
  simp only [ofValue?, fields?_toValue, Option.bind_eq_bind, Option.bind_some, field?_signature]
  simp only [field?, Value.string?, hvalues, htables, Status.ofValue?_name, Option.bind_some,
    Option.pure_def]

end FormData

/-! ## The text of form data -/

theorem KeyMap.isPlain_toValue {β : Type} {encode : β → Value} (h : ∀ b, IsPlain (encode b))
    (m : KeyMap β) : IsPlain (m.toValue encode) := by
  refine .record fun e he => ?_
  obtain ⟨entry, -, rfl⟩ := List.mem_map.1 he
  exact h entry.2

theorem Row.isPlain_toValue (r : Row) : IsPlain r.toValue := KeyMap.isPlain_toValue .string r

theorem Signature.isPlain_toValue (s : Signature) : IsPlain s.toValue := by
  refine .record ?_
  simp only [List.forall_mem_cons, List.not_mem_nil, false_implies, implies_true, and_true]
  exact ⟨.string _, .string _⟩

theorem FormData.isPlain_toValue (d : FormData) : IsPlain d.toValue := by
  have htables : IsPlain (d.tables.toValue fun rows => .list (rows.map Row.toValue)) := by
    refine KeyMap.isPlain_toValue (fun rows => .list fun v hv => ?_) d.tables
    obtain ⟨r, -, rfl⟩ := List.mem_map.1 hv
    exact r.isPlain_toValue
  refine .record ?_
  simp only [List.forall_mem_append, List.forall_mem_cons, List.forall_mem_map, Option.mem_toList,
    List.not_mem_nil, false_implies, implies_true, and_true]
  exact ⟨⟨⟨.string _, .string _, KeyMap.isPlain_toValue .string _, htables⟩,
    fun s _ => s.isPlain_toValue⟩, .string _⟩

/-- Decoding stored form data gives the form data, from the record and from its text. -/
theorem FormData.ofText?_render_toValue (d : FormData) :
    ofValue? d.toValue = some d ∧ ofText? (Json.render d.toValue) = some d := by
  refine ⟨d.ofValue?_toValue, ?_⟩
  rw [ofText?, Json.read_render d.isPlain_toValue, Option.bind_some, d.ofValue?_toValue]

end Filing
