import LiveDataflow.Json.Printer
import LiveDataflow.Json.Spelling

/-!
# The tokens of printed JSON

What the printer writes is cut into the tokens that it meant: a quoted string comes back as pieces that
stand for its characters, an integer as its digits.  A number has no end of its own, so it is read back
only in front of something that cannot belong to it.

## Results

* `Token.scan?_of_read?`: a token in front of a text comes in front of the tokens of the text.
* `Token.scan?_string`, `Token.scan?_integer`: so do a quoted string and an integer.
* `Numeral.number?_ofInt`: the numeral of an integer of sixty-four bits has the integer for its number.
-/

set_option autoImplicit false

namespace LiveDataflow.Json

/-! ## One token after the other -/

namespace Token

/-- A text that was scanned within some steps is scanned within more. -/
theorem scanWithin_mono {n m : Nat} {cs : List Char} {ts : List Token}
    (h : scanWithin n cs = some ts) (hnm : n ≤ m) : scanWithin m cs = some ts := by
  induction n generalizing m cs ts with
  | zero =>
    cases cs with
    | nil =>
      cases h
      cases m <;> rfl
    | cons c rest => cases h
  | succ n ih =>
    obtain ⟨m, rfl⟩ := Nat.exists_eq_add_of_le' (Nat.le_trans (Nat.succ_le_succ n.zero_le) hnm)
    have hle : n ≤ m := Nat.le_of_succ_le_succ hnm
    cases cs with
    | nil => exact h
    | cons c rest =>
      rw [scanWithin] at h ⊢
      split at h
      · next hblank =>
        rw [if_pos hblank]
        exact ih h hle
      · next hblank =>
        rw [if_neg hblank]
        cases hread : read? c rest with
        | none =>
          rw [hread] at h
          cases h
        | some found =>
          obtain ⟨token, rest⟩ := found
          rw [hread] at h
          obtain ⟨more, hmore, rfl⟩ : ∃ more, scanWithin n rest = some more ∧ ts = token :: more := by
            cases hscan : scanWithin n rest with
            | none => simp [hscan] at h
            | some more => exact ⟨more, rfl, by simpa [hscan] using h.symm⟩
          simp [ih hmore hle]

/-- A token in front of a text comes in front of the tokens of the text. -/
theorem scan?_of_read? {c : Char} {cs rest : List Char} {token : Token} {ts : List Token}
    (hblank : isBlank c = false) (hread : read? c cs = some (token, rest))
    (hlength : rest.length ≤ cs.length) (hscan : scan? rest = some ts) :
    scan? (c :: cs) = some (token :: ts) := by
  have hrest : scanWithin cs.length rest = some ts := scanWithin_mono hscan hlength
  show scanWithin (cs.length + 1) (c :: cs) = some (token :: ts)
  rw [scanWithin, hblank, if_neg Bool.false_ne_true, hread]
  simp [hrest]

/-! ## Strings -/

/-- Puts a piece in front of the pieces that were found. -/
def front (piece : Piece) (found : List Piece × List Char) : List Piece × List Char :=
  (piece :: found.1, found.2)

theorem readString?_plain {c : Char} (hquote : c ≠ '"') (hslash : c ≠ '\\') (hc : 32 ≤ c.toNat)
    (rest : List Char) : readString? (c :: rest) = (readString? rest).map (front (.char c)) := by
  rw [readString?.eq_def]
  split
  · simp_all
  · simp_all
  · simp_all
  · simp_all
  · rename_i heq
    cases heq
    rw [if_neg (Nat.not_lt.2 hc)]
    rfl

theorem readString?_letter {c e : Char} (he : simpleEscape? c = some e) (rest : List Char) :
    readString? ('\\' :: c :: rest) = (readString? rest).map (front (.char e)) := by
  have hu : c ≠ 'u' := by
    rintro rfl
    cases he
  rw [readString?, he]
  · cases readString? rest <;> rfl
  · intro _ _ _ _ _ hc
    exact absurd hc hu

theorem readString?_unit {a b c d : Char} {n : Nat} (hn : Text.number? 16 [a, b, c, d] = some n)
    (rest : List Char) :
    readString? ('\\' :: 'u' :: a :: b :: c :: d :: rest) = (readString? rest).map (front (.unit n)) := by
  rw [readString?, hn]
  cases readString? rest <;> rfl

theorem number?_control :
    ∀ n < 32, Text.number? 16 ['0', '0', hexDigit (n / 16), hexDigit (n % 16)] = some n := by
  decide

/-- A character is written with a letter of its own, by its number if it is a control character, or as it
is. -/
theorem escapeChar_cases (c : Char) :
    (∃ e, simpleEscape? e = some c ∧ escapeChar c = ['\\', e]) ∨
      (c.toNat < 32 ∧
        escapeChar c = ['\\', 'u', '0', '0', hexDigit (c.toNat / 16), hexDigit (c.toNat % 16)]) ∨
      (c ≠ '"' ∧ c ≠ '\\' ∧ 32 ≤ c.toNat ∧ escapeChar c = [c]) := by
  have hletter {n : Nat} (h : c.toNat = n) : c = Char.ofNat n := by rw [← h, Char.ofNat_toNat]
  unfold escapeChar
  split
  · next h => exact .inl ⟨'"', by rw [h]; rfl, rfl⟩
  split
  · next h => exact .inl ⟨'\\', by rw [h]; rfl, rfl⟩
  split
  · next h => exact .inl ⟨'b', by rw [hletter h]; rfl, rfl⟩
  split
  · next h => exact .inl ⟨'f', by rw [hletter h]; rfl, rfl⟩
  split
  · next h => exact .inl ⟨'n', by rw [h]; rfl, rfl⟩
  split
  · next h => exact .inl ⟨'r', by rw [h]; rfl, rfl⟩
  split
  · next h => exact .inl ⟨'t', by rw [h]; rfl, rfl⟩
  split
  · next h => exact .inr (.inl ⟨h, rfl⟩)
  · next hquote hslash _ _ _ _ _ hcontrol => exact .inr (.inr ⟨hquote, hslash, Nat.le_of_not_lt hcontrol, rfl⟩)

/-- What the printer writes for a character is read as one piece, which stands for the character. -/
theorem readString?_escapeChar (c : Char) :
    ∃ piece : Piece,
      (∀ rest, readString? (escapeChar c ++ rest) = (readString? rest).map (front piece)) ∧
      ∀ pieces, Spelling.characters? (piece :: pieces) = (Spelling.characters? pieces).map (c :: ·) := by
  rcases escapeChar_cases c with ⟨e, he, hc⟩ | ⟨hcontrol, hc⟩ | ⟨hquote, hslash, hplain, hc⟩
  · rw [hc]
    exact ⟨.char c, readString?_letter he, fun pieces => rfl⟩
  · rw [hc]
    refine ⟨.unit c.toNat, readString?_unit (number?_control c.toNat hcontrol), fun pieces => ?_⟩
    -- a unit this small is no half of a character
    rw [Spelling.characters?.eq_def]
    dsimp only
    rw [if_neg (by omega), if_neg (by omega), Char.ofNat_toNat]
  · rw [hc]
    exact ⟨.char c, readString?_plain hquote hslash hplain, fun pieces => rfl⟩

/-- A string is read up to the quote that closes it. -/
theorem readString?_escaped (s : List Char) :
    ∃ pieces, Spelling.characters? pieces = some s ∧
      ∀ rest, readString? (s.flatMap escapeChar ++ '"' :: rest) = some (pieces, rest) := by
  induction s with
  | nil => exact ⟨[], rfl, fun rest => rfl⟩
  | cons c s ih =>
    obtain ⟨pieces, hpieces, hread⟩ := ih
    obtain ⟨piece, hpiece, hstands⟩ := readString?_escapeChar c
    refine ⟨piece :: pieces, by rw [hstands, hpieces]; rfl, fun rest => ?_⟩
    rw [List.flatMap_cons, List.append_assoc, hpiece, hread]
    rfl

/-- A quoted string comes back as pieces that stand for it, whatever follows. -/
theorem scan?_string (s : String) :
    ∃ pieces, Spelling.string? pieces = some s ∧
      ∀ {rest ts}, scan? rest = some ts →
        scan? ((stringText s).toList ++ rest) = some (.string pieces :: ts) := by
  obtain ⟨pieces, hpieces, hread⟩ := readString?_escaped s.toList
  refine ⟨pieces, by simp [Spelling.string?, hpieces], fun {rest ts} hscan => ?_⟩
  have htext : (stringText s).toList ++ rest = '"' :: (s.toList.flatMap escapeChar ++ '"' :: rest) := by
    simp [stringText]
  rw [htext]
  refine scan?_of_read? rfl ?_ (by simp; omega) hscan
  show (readString? _).map _ = _
  rw [hread]
  rfl

end Token

/-! ## Integers -/

theorem digit?_digitChar : ∀ d < 10, Text.digit? 10 (Nat.digitChar d) = some d := by decide

/-- The digits of a number, the first one first. -/
def digitsOf (n : Nat) : List Nat := (Nat.toDigits 10 n).filterMap (Text.digit? 10)

theorem digitsOf_of_lt {n : Nat} (h : n < 10) : digitsOf n = [n] := by
  unfold digitsOf
  rw [Nat.toDigits_of_lt_base h]
  simp [digit?_digitChar n h]

theorem digitsOf_of_le {n : Nat} (h : 10 ≤ n) : digitsOf n = digitsOf (n / 10) ++ [n % 10] := by
  unfold digitsOf
  rw [Nat.toDigits_eq_if (by decide), if_neg (Nat.not_lt.2 h), List.filterMap_append]
  simp [digit?_digitChar (n % 10) (Nat.mod_lt n (by decide))]

/-- A positive number is written without a zero in front. -/
theorem digitsOf_pos {n : Nat} (h : 0 < n) : ∃ d rest, digitsOf n = d :: rest ∧ d ≠ 0 := by
  induction n using Nat.strongRecOn with
  | ind n ih =>
    by_cases hn : n < 10
    · exact ⟨n, [], digitsOf_of_lt hn, Nat.ne_of_gt h⟩
    · obtain ⟨d, rest, hd, hpos⟩ := ih (n / 10) (by omega) (by omega)
      exact ⟨d, rest ++ [n % 10], by rw [digitsOf_of_le (by omega), hd]; rfl, hpos⟩

theorem accumulate_append {limit n m : Nat} {l : List Nat} (h : accumulate limit n l = (m, []))
    (r : List Nat) : accumulate limit n (l ++ r) = accumulate limit m r := by
  induction l generalizing n with
  | nil =>
    cases h
    rfl
  | cons d l ih =>
    rw [accumulate] at h
    split at h
    · cases h
    · next hd =>
      rw [List.cons_append, accumulate, if_neg hd]
      exact ih h

/-- Digits add up to their number if it is within the limit. -/
theorem accumulate_digitsOf {limit n : Nat} (h : n ≤ limit) :
    accumulate limit 0 (digitsOf n) = (n, []) := by
  induction n using Nat.strongRecOn with
  | ind n ih =>
    by_cases hn : n < 10
    · rw [digitsOf_of_lt hn, accumulate, if_neg (by omega)]
      simp [accumulate]
    · have hinit := ih (n / 10) (by omega) (by omega)
      rw [digitsOf_of_le (by omega), accumulate_append hinit, accumulate, if_neg (by omega), accumulate]
      congr 1
      omega

namespace Numeral

/-- A text does not go on with a numeral: it is empty, or begins with what no numeral has. -/
def Ends (rest : List Char) : Prop :=
  ∀ c more, rest = c :: more → c.isDigit = false ∧ c ≠ '.' ∧ c ≠ 'e' ∧ c ≠ 'E'

theorem ends_nil : Ends [] := by
  intro c more h
  cases h

variable {rest : List Char}

theorem readDigits_toDigits (h : Ends rest) (n : Nat) :
    readDigits (Nat.toDigits 10 n ++ rest) = (digitsOf n, rest) := by
  have hdigits : ∀ c ∈ Nat.toDigits 10 n, c.isDigit = true :=
    fun c hc => Nat.isDigit_of_mem_toDigits (by decide) (by decide) hc
  have hstop : rest.takeWhile Char.isDigit = [] ∧ rest.dropWhile Char.isDigit = rest := by
    cases rest with
    | nil => exact ⟨rfl, rfl⟩
    | cons c more => simp [(h c more rfl).1]
  unfold readDigits
  rw [List.takeWhile_append_of_pos hdigits, List.dropWhile_append_of_pos hdigits, hstop.1, hstop.2,
    List.append_nil]
  rfl

theorem readWhole?_toDigits (h : Ends rest) (n : Nat) :
    readWhole? (Nat.toDigits 10 n ++ rest) = some (digitsOf n, rest) := by
  unfold readWhole?
  rw [readDigits_toDigits h]
  by_cases hn : n = 0
  · subst hn
    rfl
  · obtain ⟨d, ds, hd, hpos⟩ := digitsOf_pos (Nat.pos_of_ne_zero hn)
    rw [hd]
    split
    · simp_all
    · simp_all
    · rfl

theorem readFraction?_of_ends (h : Ends rest) : readFraction? rest = some ([], rest) := by
  unfold readFraction?
  split
  · next more => exact absurd rfl (h '.' more rfl).2.1
  · rfl

theorem readExponent?_of_ends (h : Ends rest) : readExponent? rest = some (none, rest) := by
  unfold readExponent?
  split
  · next more => exact absurd rfl (h 'e' more rfl).2.2.1
  · next more => exact absurd rfl (h 'E' more rfl).2.2.2
  · rfl

/-- The numeral of an integer. -/
def ofInt (i : Int) : Numeral := ⟨decide (i < 0), digitsOf i.natAbs, [], none⟩

theorem toList_toString (i : Int) :
    (toString i).toList = (if i < 0 then ['-'] else []) ++ Nat.toDigits 10 i.natAbs := by
  show i.repr.toList = _
  rw [Int.repr_eq_if]
  by_cases hi : i < 0
  · have habs : (-i).toNat = i.natAbs := by omega
    rw [if_neg (by omega), if_pos hi, Nat.repr_eq_ofList_toDigits, habs]
    simp
  · have habs : i.toNat = i.natAbs := by omega
    rw [if_pos (by omega), if_neg hi, Nat.repr_eq_ofList_toDigits, String.toList_ofList, habs]
    rfl

theorem exists_toDigits (n : Nat) : ∃ c cs, Nat.toDigits 10 n = c :: cs ∧ c.isDigit = true := by
  cases h : Nat.toDigits 10 n with
  | nil => exact absurd h Nat.toDigits_ne_nil
  | cons c cs =>
    have hmem : c ∈ Nat.toDigits 10 n := h ▸ List.mem_cons_self
    exact ⟨c, cs, rfl, Nat.isDigit_of_mem_toDigits (by decide) (by decide) hmem⟩

/-- An integer is read back in front of what ends it. -/
theorem read?_toString (h : Ends rest) (i : Int) :
    read? ((toString i).toList ++ rest) = some (ofInt i, rest) := by
  have hwhole := readWhole?_toDigits h i.natAbs
  rw [toList_toString]
  unfold read? ofInt
  by_cases hi : i < 0
  · simp [hi, hwhole, readFraction?_of_ends h, readExponent?_of_ends h]
  · obtain ⟨c, cs, hcs, hdigit⟩ := exists_toDigits i.natAbs
    have hc : c ≠ '-' := by
      rintro rfl
      cases hdigit
    rw [hcs, List.cons_append] at hwhole
    rw [if_neg hi, List.nil_append, hcs, List.cons_append]
    simp [hi, hc, hwhole, readFraction?_of_ends h, readExponent?_of_ends h]

/-- An integer of sixty-four bits, signed or not, is the number of its numeral. -/
theorem number?_ofInt {i : Int} (hmin : minSigned ≤ i) (hmax : i ≤ maxWord) :
    (ofInt i).number? = some (.integer i) := by
  have hlimit : i.natAbs ≤ maxWord := by
    have : minSigned = -9223372036854775808 := rfl
    have : maxWord = 18446744073709551615 := rfl
    omega
  unfold number? ofInt
  simp only [accumulate_digitsOf hlimit]
  by_cases hi : i < 0
  · have habs : -(i.natAbs : Int) = i := by omega
    have hne : i.natAbs ≠ 0 := by omega
    simp only [hi, decide_true, if_true]
    rw [habs, if_pos ⟨hne, hmin⟩]
  · have habs : (i.natAbs : Int) = i := by omega
    simp only [hi, decide_false, Bool.false_eq_true, if_false]
    rw [habs]

end Numeral

namespace Token

theorem read?_numeral {c : Char} (hc : c = '-' ∨ c.isDigit = true) (cs : List Char) :
    read? c cs = (Numeral.read? (c :: cs)).map fun (n, rest) => (.number n, rest) := by
  unfold read?
  split
  case h_11 => rfl
  all_goals exact absurd hc (by decide)

/-- An integer comes back in front of what ends it. -/
theorem scan?_integer {rest : List Char} {ts : List Token} (hends : Numeral.Ends rest)
    (hscan : scan? rest = some ts) (i : Int) :
    scan? ((toString i).toList ++ rest) = some (.number (.ofInt i) :: ts) := by
  have hread := Numeral.read?_toString hends i
  obtain ⟨c, cs, hcs, hc⟩ : ∃ c cs, (toString i).toList = c :: cs ∧ (c = '-' ∨ c.isDigit = true) := by
    rw [Numeral.toList_toString]
    obtain ⟨c, cs, hcs, hdigit⟩ := Numeral.exists_toDigits i.natAbs
    rw [hcs]
    by_cases hi : i < 0
    · exact ⟨'-', c :: cs, by simp [hi], .inl rfl⟩
    · exact ⟨c, cs, by simp [hi], .inr hdigit⟩
  rw [hcs, List.cons_append] at hread ⊢
  refine scan?_of_read? ?_ ?_ (by simp) hscan
  · cases hblank : isBlank c with
    | false => rfl
    | true =>
      simp only [isBlank, Bool.or_eq_true, decide_eq_true_eq] at hblank
      rcases hblank with ((rfl | rfl) | rfl) | rfl <;> exact absurd hc (by decide)
  · rw [read?_numeral hc, hread]
    rfl

end Token

end LiveDataflow.Json
