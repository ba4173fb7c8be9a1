import Filing.Cache.TemplateCache

/-!
# What a key tells of its request

A key is the digest of form code, NUL and source in hexadecimal digits. The digits tell the digest,
and the bytes tell the text, but the text does not tell where the form code ends: either of its
parts may hold a NUL itself. So two requests have one key if they are the same text, cut at
different places, or if their digests collide.
-/

namespace Filing

/-! ## Digits -/

namespace Digest

/-- The value of a hexadecimal digit. -/
def hexDigit (c : Char) : Nat :=
  if c.isDigit then c.toNat - '0'.toNat else c.toNat - 'a'.toNat + 10

/-- The number that hexadecimal digits write. -/
def hexValue (s : List Char) : Nat := s.foldl (fun n c => 16 * n + hexDigit c) 0

theorem hexDigit_digitChar {d : Nat} (h : d < 16) : hexDigit (Nat.digitChar d) = d := by
  have hall : ∀ d < 16, hexDigit (Nat.digitChar d) = d := by decide
  exact hall d h

theorem hexValue_concat (s : List Char) (c : Char) :
    hexValue (s ++ [c]) = 16 * hexValue s + hexDigit c := by
  rw [hexValue, List.foldl_append]
  rfl

theorem hexValue_toDigits (n : Nat) : hexValue (Nat.toDigits 16 n) = n := by
  induction n using Nat.strongRecOn with
  | ind n ih =>
    by_cases hn : n < 16
    · rw [Nat.toDigits_of_lt_base hn]
      exact (hexValue_concat [] _).trans ((Nat.zero_add _).trans (hexDigit_digitChar hn))
    · have hle : 16 ≤ n := Nat.not_lt.1 hn
      rw [Nat.toDigits_of_base_le (by decide) hle, hexValue_concat, ih _ (by omega),
        hexDigit_digitChar (Nat.mod_lt _ (by decide))]
      omega

theorem hexValue_replicate_append (n : Nat) (s : List Char) :
    hexValue (List.replicate n '0' ++ s) = hexValue s := by
  induction n with
  | zero => rfl
  | succ n ih => exact ih

theorem wordText_injective : Function.Injective wordText := by
  intro w v h
  have hvalue : ∀ w : UInt32, hexValue (wordText w) = w.toNat := fun w =>
    (hexValue_replicate_append _ _).trans (hexValue_toDigits _)
  have heq := congrArg hexValue h
  rw [hvalue, hvalue] at heq
  exact UInt32.toNat_inj.1 heq

theorem length_wordText (w : UInt32) : (wordText w).length = 8 := by
  have hle : (Nat.toDigits 16 w.toNat).length ≤ 8 :=
    (Nat.length_toDigits_le_iff (by decide) (by decide)).2 w.toNat_lt
  unfold wordText
  dsimp only
  rw [List.length_append, List.length_replicate]
  omega

theorem flatMap_wordText_inj {ws vs : List UInt32} (hlength : ws.length = vs.length)
    (h : ws.flatMap wordText = vs.flatMap wordText) : ws = vs := by
  induction ws generalizing vs with
  | nil => exact (List.length_eq_zero_iff.1 hlength.symm).symm
  | cons w ws ih =>
    cases vs with
    | nil => exact absurd hlength (by simp)
    | cons v vs =>
      rw [List.flatMap_cons, List.flatMap_cons] at h
      obtain ⟨hfirst, hrest⟩ := List.append_inj h (by rw [length_wordText, length_wordText])
      rw [wordText_injective hfirst, ih (Nat.succ.inj hlength) hrest]

theorem State.text_injective : Function.Injective State.text := by
  intro s t h
  have hwords := flatMap_wordText_inj (by rfl) (String.ofList_injective h)
  obtain ⟨a, b, c, d, e, f, g, h⟩ := s
  obtain ⟨a', b', c', d', e', f', g', h'⟩ := t
  simpa using hwords

end Digest

/-! ## Bytes -/

theorem toList_loop (bytes : ByteArray) (i : Nat) (read : List UInt8) :
    ByteArray.toList.loop bytes i read = read.reverse ++ bytes.data.toList.drop i := by
  induction hleft : bytes.size - i generalizing i read with
  | zero =>
    rw [ByteArray.toList.loop, if_neg (by omega), List.drop_eq_nil_of_le, List.append_nil]
    rw [Array.length_toList, ByteArray.size_data]
    omega
  | succ n ih =>
    have hlt : i < bytes.size := by omega
    have hlt' : i < bytes.data.toList.length := by
      rwa [Array.length_toList, ByteArray.size_data]
    have hget : bytes.get! i = bytes.data.toList[i] := by
      rw [ByteArray.get!, getElem!_pos bytes.data i (by rwa [ByteArray.size_data])]
      rfl
    rw [ByteArray.toList.loop, if_pos hlt, ih (i + 1) _ (by omega), List.reverse_cons,
      List.append_assoc, List.singleton_append, hget, ← List.drop_eq_getElem_cons hlt']

theorem toList_eq_data (bytes : ByteArray) : bytes.toList = bytes.data.toList :=
  toList_loop bytes 0 []

theorem fingerprintBytes_eq (source formCode : String) :
    fingerprintBytes source formCode = (formCode ++ "\x00" ++ source).toUTF8.data.toList := by
  have hnul : "\x00".toByteArray.data.toList = [0] := by decide
  rw [fingerprintBytes, toList_eq_data, toList_eq_data]
  simp only [String.toUTF8_eq_toByteArray, String.toByteArray_append, ByteArray.toList_data_append,
    hnul, List.append_assoc, List.singleton_append]

/-- The form code of the second request is that of the first one and, after a NUL, what the source
of the first one begins with, up to a NUL. -/
def Straddles (p q : String × String) : Prop :=
  ∃ middle, q.2 = p.2 ++ "\x00" ++ middle ∧ p.1 = middle ++ "\x00" ++ q.1

theorem Straddles.fingerprintBytes_eq {p q : String × String} (h : Straddles p q) :
    fingerprintBytes p.1 p.2 = fingerprintBytes q.1 q.2 := by
  obtain ⟨middle, hq, hp⟩ := h
  rw [Filing.fingerprintBytes_eq, Filing.fingerprintBytes_eq, hq, hp]
  simp only [String.append_assoc]

theorem eq_or_straddles {p q : String × String} {rest : List Char}
    (hcode : q.2.toList = p.2.toList ++ rest)
    (hsource : '\x00' :: p.1.toList = rest ++ '\x00' :: q.1.toList) : p = q ∨ Straddles p q := by
  cases rest with
  | nil =>
    have hsame : q.2 = p.2 := String.toList_inj.1 (hcode.trans (List.append_nil _))
    have hsame' : p.1 = q.1 := String.toList_inj.1 (List.cons.inj hsource).2
    exact .inl (Prod.ext hsame' hsame.symm)
  | cons c middle =>
    obtain ⟨rfl, hsource⟩ := List.cons.inj hsource
    refine .inr ⟨String.ofList middle, String.toList_inj.1 ?_, String.toList_inj.1 ?_⟩
    · simpa using hcode
    · simpa using hsource

/-- Requests give the same bytes if they are the same text, cut at one of its NULs. -/
theorem fingerprintBytes_eq_iff (p q : String × String) :
    fingerprintBytes p.1 p.2 = fingerprintBytes q.1 q.2 ↔
      p = q ∨ Straddles p q ∨ Straddles q p := by
  constructor
  · intro h
    rw [fingerprintBytes_eq, fingerprintBytes_eq] at h
    have htext : p.2 ++ "\x00" ++ p.1 = q.2 ++ "\x00" ++ q.1 :=
      String.toByteArray_inj.1 (ByteArray.ext (Array.toList_inj.1 h))
    have hchars : p.2.toList ++ '\x00' :: p.1.toList = q.2.toList ++ '\x00' :: q.1.toList := by
      simpa using congrArg String.toList htext
    rcases List.append_eq_append_iff.1 hchars with ⟨rest, hcode, hsource⟩ | ⟨rest, hcode, hsource⟩
    · exact (eq_or_straddles hcode hsource).imp_right .inl
    · exact (eq_or_straddles hcode hsource).imp Eq.symm .inr
  · rintro (rfl | h | h)
    · rfl
    · exact h.fingerprintBytes_eq
    · exact h.fingerprintBytes_eq.symm

/-! ## Keys -/

/-- Different bytes with one key. -/
def Collides (p q : String × String) : Prop :=
  fingerprintBytes p.1 p.2 ≠ fingerprintBytes q.1 q.2 ∧
    Digest.ofBytes (fingerprintBytes p.1 p.2) = Digest.ofBytes (fingerprintBytes q.1 q.2)

/-- Requests have one key if they are the same text, cut at one of its NULs, or if their digests
collide. -/
theorem fingerprint_eq_iff (p q : String × String) :
    fingerprint p.1 p.2 = fingerprint q.1 q.2 ↔
      p = q ∨ (Straddles p q ∨ Straddles q p) ∨ Collides p q := by
  rw [← or_assoc, ← fingerprintBytes_eq_iff, fingerprint, fingerprint,
    Digest.State.text_injective.eq_iff, Collides]
  constructor
  · intro h
    exact (Decidable.em _).imp_right fun hne => ⟨hne, h⟩
  · rintro (h | ⟨-, h⟩)
    · rw [h]
    · exact h

end Filing
