import Mathlib.Data.List.Forall2
import LiveDataflow.Proofs.Tokens

/-!
# The text of a value is read back

A spelling is read from its own tokens, and the text of a value is cut into the tokens of a spelling of
that value.  Both go by the tree: the reading with fuel for the number of its tokens, the cutting part by
part, as no token of a part runs on into what follows it.

## Results

* `Json.Spelling.read?_of_scan?`: a text is read as a spelling if its tokens are those of the spelling.
* `Json.Spelling.Spells`: which spellings a value has.
* `Json.Exact.read?_text`: the text of a value is read as a spelling of the value.
-/

set_option autoImplicit false

namespace LiveDataflow.Json

namespace Spelling

mutual

/-- The tokens of a spelling. -/
def tokens : Spelling → List Token
  | .null => [.null]
  | .bool b => [.bool b]
  | .number n => [.number n]
  | .string s => [.string s]
  | .array [] => [.openArray, .closeArray]
  | .array (item :: items) => .openArray :: (item.tokens ++ moreItems items)
  | .object [] => [.openObject, .closeObject]
  | .object (field :: fields) => .openObject :: (fieldTokens field ++ moreFields fields)
termination_by structural s => s

/-- The tokens behind the first item of an array, its closing bracket included. -/
def moreItems : List Spelling → List Token
  | [] => [.closeArray]
  | item :: items => .comma :: (item.tokens ++ moreItems items)
termination_by structural items => items

/-- The tokens behind the first field of an object, its closing brace included. -/
def moreFields : List (List Piece × Spelling) → List Token
  | [] => [.closeObject]
  | field :: fields => .comma :: (fieldTokens field ++ moreFields fields)
termination_by structural fields => fields

def fieldTokens : List Piece × Spelling → List Token
  | (key, value) => .string key :: .colon :: value.tokens
termination_by structural field => field

end

/-! ### Steps of the reading -/

section Steps

variable {fuel : Nat} {tokens more rest : List Token}

theorem readItems_last {item : Spelling} (h : readValue fuel tokens = some (item, .closeArray :: rest)) :
    readItems (fuel + 1) tokens = some ([item], rest) := by
  rw [readItems]
  simp [h]

theorem readItems_more {item : Spelling} {items : List Spelling}
    (h : readValue fuel tokens = some (item, .comma :: more))
    (hmore : readItems fuel more = some (items, rest)) :
    readItems (fuel + 1) tokens = some (item :: items, rest) := by
  rw [readItems]
  simp [h, hmore]

theorem readFields_last {key : List Piece} {value : Spelling}
    (h : readValue fuel tokens = some (value, .closeObject :: rest)) :
    readFields (fuel + 1) (.string key :: .colon :: tokens) = some ([(key, value)], rest) := by
  rw [readFields]
  simp [h]

theorem readFields_more {key : List Piece} {value : Spelling} {fields : List (List Piece × Spelling)}
    (h : readValue fuel tokens = some (value, .comma :: more))
    (hmore : readFields fuel more = some (fields, rest)) :
    readFields (fuel + 1) (.string key :: .colon :: tokens) = some ((key, value) :: fields, rest) := by
  rw [readFields]
  simp [h, hmore]

/-- A closing bracket is no item. -/
theorem readItems_closeArray (fuel : Nat) (rest : List Token) : readItems fuel (.closeArray :: rest) = none := by
  cases fuel with
  | zero => rfl
  | succ fuel => cases fuel <;> rfl

theorem readValue_array {items : List Spelling} (h : readItems fuel tokens = some (items, rest)) :
    readValue (fuel + 1) (.openArray :: tokens) = some (.array items, rest) := by
  rw [readValue]
  · rw [h]
    rfl
  · rintro more rfl
    rw [readItems_closeArray] at h
    cases h

theorem readValue_object {fields : List (List Piece × Spelling)}
    (h : readFields fuel tokens = some (fields, rest)) :
    readValue (fuel + 1) (.openObject :: tokens) = some (.object fields, rest) := by
  rw [readValue]
  · rw [h]
    rfl
  · rintro more rfl
    cases fuel <;> cases h

end Steps

mutual

/-- A spelling is read back from its tokens, whatever follows. -/
theorem readValue_tokens : ∀ (s : Spelling) (fuel : Nat) (rest : List Token),
    2 * s.tokens.length ≤ fuel + 1 → readValue fuel (s.tokens ++ rest) = some (s, rest)
  | .null, fuel + 1, rest, _ => rfl
  | .bool b, fuel + 1, rest, _ => rfl
  | .number n, fuel + 1, rest, _ => rfl
  | .string p, fuel + 1, rest, _ => rfl
  | .array [], fuel + 1, rest, _ => rfl
  | .array (item :: items), fuel + 1, rest, h => by
    rw [tokens, List.length_cons] at h
    rw [tokens, List.cons_append, List.append_assoc]
    exact readValue_array (readItems_tokens item items fuel rest (by omega))
  | .object [], fuel + 1, rest, _ => rfl
  | .object (field :: fields), fuel + 1, rest, h => by
    rw [tokens, List.length_cons] at h
    rw [tokens, List.cons_append, List.append_assoc]
    exact readValue_object (readFields_tokens field fields fuel rest (by omega))
  | .null, 0, _, h | .bool _, 0, _, h | .number _, 0, _, h | .string _, 0, _, h | .array [], 0, _, h
  | .array (_ :: _), 0, _, h | .object [], 0, _, h | .object (_ :: _), 0, _, h => by
    simp [tokens] at h <;> omega

theorem readItems_tokens : ∀ (item : Spelling) (items : List Spelling) (fuel : Nat) (rest : List Token),
    2 * (item.tokens ++ moreItems items).length ≤ fuel →
      readItems fuel (item.tokens ++ (moreItems items ++ rest)) = some (item :: items, rest)
  | item, [], fuel + 1, rest, h => by
    simp only [moreItems, List.length_append, List.length_cons, List.length_nil] at h
    exact readItems_last (readValue_tokens item fuel (.closeArray :: rest) (by omega))
  | item, next :: items, fuel + 1, rest, h => by
    simp only [moreItems, List.length_append, List.length_cons] at h
    rw [moreItems, List.cons_append, List.append_assoc]
    exact readItems_more (readValue_tokens item fuel _ (by omega))
      (readItems_tokens next items fuel rest (by rw [List.length_append]; omega))
  | item, [], 0, rest, h => by simp [moreItems] at h
  | item, _ :: _, 0, rest, h => by simp [moreItems] at h

theorem readFields_tokens : ∀ (field : List Piece × Spelling) (fields : List (List Piece × Spelling))
    (fuel : Nat) (rest : List Token), 2 * (fieldTokens field ++ moreFields fields).length ≤ fuel →
      readFields fuel (fieldTokens field ++ (moreFields fields ++ rest)) = some (field :: fields, rest)
  | (key, value), [], fuel + 1, rest, h => by
    simp only [moreFields, fieldTokens, List.length_append, List.length_cons, List.length_nil] at h
    exact readFields_last (readValue_tokens value fuel (.closeObject :: rest) (by omega))
  | (key, value), next :: fields, fuel + 1, rest, h => by
    simp only [moreFields, fieldTokens, List.length_append, List.length_cons] at h
    rw [moreFields, List.cons_append, List.append_assoc]
    exact readFields_more (readValue_tokens value fuel _ (by omega))
      (readFields_tokens next fields fuel rest (by rw [List.length_append]; omega))
  | _, [], 0, rest, h => by simp [moreFields] at h
  | _, _ :: _, 0, rest, h => by simp [moreFields] at h

end

/-- A text is read as a spelling if its tokens are those of the spelling. -/
theorem read?_of_scan? {text : String} {s : Spelling} (h : Token.scan? text.toList = some s.tokens) :
    read? text = some s := by
  have hread := readValue_tokens s (2 * s.tokens.length + 1) [] (by omega)
  rw [List.append_nil] at hread
  unfold read?
  rw [h]
  simp [hread]

/-! ## Spellings of a value -/

mutual

/-- A spelling spells a value out: its texts may be escaped in any way, its items and fields are those
of the value in their order. -/
inductive Spells : Spelling → Json → Prop
  | null : Spells .null .null
  | bool (b : Bool) : Spells (.bool b) (.bool b)
  | number {m : Numeral} {n : Number} (h : m.number? = some n) : Spells (.number m) (.number n)
  | string {p : List Piece} {t : String} (h : string? p = some t) : Spells (.string p) (.string t)
  | array {items : List Spelling} {values : List Json} (h : List.Forall₂ Spells items values) :
      Spells (.array items) (.array values)
  | object {entries : List (List Piece × Spelling)} {fields : List (String × Json)}
      (h : List.Forall₂ SpellsField entries fields) : Spells (.object entries) (.object fields)

inductive SpellsField : List Piece × Spelling → String × Json → Prop
  | mk {p : List Piece} {key : String} {s : Spelling} {value : Json} (hkey : string? p = some key)
      (hvalue : Spells s value) : SpellsField (p, s) (key, value)

end

end Spelling

/-! ## The text of a value -/

/-- The numbers of a value are integers of sixty-four bits, signed or not. -/
inductive Exact : Json → Prop
  | null : Exact .null
  | bool (b : Bool) : Exact (.bool b)
  | integer {i : Int} (hmin : minSigned ≤ i) (hmax : i ≤ maxWord) : Exact (.number (.integer i))
  | string (s : String) : Exact (.string s)
  | array {items : List Json} (h : ∀ item ∈ items, Exact item) : Exact (.array items)
  | object {fields : List (String × Json)} (h : ∀ field ∈ fields, Exact field.2) : Exact (.object fields)

theorem itemTexts_eq (items : List Json) : itemTexts items = items.map text := by
  induction items with
  | nil => rfl
  | cons item rest ih => rw [itemTexts, ih, List.map_cons]

theorem fieldTexts_eq (fields : List (String × Json)) : fieldTexts fields = fields.map fieldText := by
  induction fields with
  | nil => rfl
  | cons field rest ih => rw [fieldTexts, ih, List.map_cons]

namespace Token

/-- Characters are cut into the given tokens in front of everything that does not go on with a
numeral. -/
def Lexes (cs : List Char) (ts : List Token) : Prop :=
  ∀ {rest more}, Numeral.Ends rest → scan? rest = some more → scan? (cs ++ rest) = some (ts ++ more)

theorem ends_cons {c : Char} (h : c.isDigit = false ∧ c ≠ '.' ∧ c ≠ 'e' ∧ c ≠ 'E') (rest : List Char) :
    Numeral.Ends (c :: rest) := by
  intro d more heq
  cases heq
  exact h

section Listed

variable {α β : Type} (chars : α → List Char) (tokens : β → List Token) {rest : List Char}
  {more : List Token}

/-- Parts behind commas are cut one after the other. -/
theorem scan?_commas {parts : List α} {cuts : List β}
    (h : List.Forall₂ (fun b a => Lexes (chars a) (tokens b)) cuts parts) (hends : Numeral.Ends rest)
    (hscan : scan? rest = some more) :
    Numeral.Ends (parts.flatMap (fun a => ',' :: chars a) ++ rest) ∧
      scan? (parts.flatMap (fun a => ',' :: chars a) ++ rest) =
        some (cuts.flatMap (fun b => .comma :: tokens b) ++ more) := by
  induction h with
  | nil => exact ⟨hends, hscan⟩
  | cons hpart _ ih =>
    refine ⟨ends_cons (by decide) _, ?_⟩
    rw [List.flatMap_cons, List.flatMap_cons, List.append_assoc, List.append_assoc]
    exact scan?_of_read? rfl rfl (Nat.le_refl _) (hpart ih.1 ih.2)

theorem intercalate_comma (a : α) (parts : List α) :
    [','].intercalate ((a :: parts).map chars) = chars a ++ parts.flatMap fun a => ',' :: chars a := by
  induction parts generalizing a with
  | nil => simp
  | cons next parts ih =>
    rw [List.map_cons, List.map_cons, List.intercalate_cons_cons, ← List.map_cons, ih]
    simp

/-- Parts with commas between them are cut one after the other. -/
theorem scan?_intercalate {a : α} {b : β} {parts : List α} {cuts : List β} (ha : Lexes (chars a) (tokens b))
    (h : List.Forall₂ (fun b a => Lexes (chars a) (tokens b)) cuts parts) (hends : Numeral.Ends rest)
    (hscan : scan? rest = some more) :
    scan? ([','].intercalate ((a :: parts).map chars) ++ rest) =
      some (tokens b ++ (cuts.flatMap (fun b => .comma :: tokens b) ++ more)) := by
  have hrest := scan?_commas chars tokens h hends hscan
  rw [intercalate_comma, List.append_assoc]
  exact ha hrest.1 hrest.2

end Listed

end Token

namespace Spelling

theorem tokens_array (item : Spelling) (items : List Spelling) :
    tokens (.array (item :: items)) =
      .openArray :: (item.tokens ++ (items.flatMap (fun i => .comma :: i.tokens) ++ [.closeArray])) := by
  have hmore : moreItems items = items.flatMap (fun i => .comma :: i.tokens) ++ [.closeArray] := by
    induction items with
    | nil => rfl
    | cons item items ih => simp [moreItems, ih]
  rw [tokens, hmore]

theorem tokens_object (entry : List Piece × Spelling) (entries : List (List Piece × Spelling)) :
    tokens (.object (entry :: entries)) =
      .openObject ::
        (fieldTokens entry ++ (entries.flatMap (fun e => .comma :: fieldTokens e) ++ [.closeObject])) := by
  have hmore : moreFields entries = entries.flatMap (fun e => .comma :: fieldTokens e) ++ [.closeObject] := by
    induction entries with
    | nil => rfl
    | cons entry entries ih => simp [moreFields, ih]
  rw [tokens, hmore]

end Spelling

open Token Spelling

/-- The text of a value is cut into the tokens of a spelling of it. -/
def Prints (s : Spelling) (j : Json) : Prop := s.Spells j ∧ Lexes j.text.toList s.tokens

def PrintsField (e : List Piece × Spelling) (f : String × Json) : Prop :=
  SpellsField e f ∧ Lexes (fieldText f).toList (fieldTokens e)

theorem prints_array {items : List Spelling} {values : List Json} (h : List.Forall₂ Prints items values) :
    Prints (.array items) (.array values) := by
  refine ⟨.array (h.imp fun _ _ hp => hp.1), fun {rest more} hends hscan => ?_⟩
  have htext : (text (.array values)).toList ++ rest =
      '[' :: ([','].intercalate (values.map fun j => j.text.toList) ++ ']' :: rest) := by
    simp [text, itemTexts_eq, String.toList_intercalate, Function.comp_def]
  have hclose : scan? (']' :: rest) = some (.closeArray :: more) :=
    scan?_of_read? rfl rfl (Nat.le_refl _) hscan
  rw [htext]
  cases h with
  | nil => exact scan?_of_read? rfl rfl (Nat.le_refl _) hclose
  | cons hhead htail =>
    have hitems := scan?_intercalate (fun j : Json => j.text.toList) Spelling.tokens hhead.2
      (htail.imp fun _ _ hp => hp.2) (ends_cons (by decide) _) hclose
    rw [tokens_array]
    simpa using scan?_of_read? rfl rfl (Nat.le_refl _) hitems

theorem prints_object {entries : List (List Piece × Spelling)} {fields : List (String × Json)}
    (h : List.Forall₂ PrintsField entries fields) : Prints (.object entries) (.object fields) := by
  refine ⟨.object (h.imp fun _ _ hp => hp.1), fun {rest more} hends hscan => ?_⟩
  have htext : (text (.object fields)).toList ++ rest =
      '\x7b' :: ([','].intercalate (fields.map fun f => (fieldText f).toList) ++ '\x7d' :: rest) := by
    simp [text, fieldTexts_eq, String.toList_intercalate, Function.comp_def]
  have hclose : scan? ('\x7d' :: rest) = some (.closeObject :: more) :=
    scan?_of_read? rfl rfl (Nat.le_refl _) hscan
  rw [htext]
  cases h with
  | nil => exact scan?_of_read? rfl rfl (Nat.le_refl _) hclose
  | cons hhead htail =>
    have hfields := scan?_intercalate (fun f => (fieldText f).toList) fieldTokens hhead.2
      (htail.imp fun _ _ hp => hp.2) (ends_cons (by decide) _) hclose
    rw [tokens_object]
    simpa using scan?_of_read? rfl rfl (Nat.le_refl _) hfields

theorem prints_field {s : Spelling} {value : Json} (h : Prints s value) (key : String) :
    ∃ e, PrintsField e (key, value) := by
  obtain ⟨pieces, hkey, hscan⟩ := scan?_string key
  refine ⟨(pieces, s), .mk hkey h.1, fun {rest more} hends hmore => ?_⟩
  have htext : (fieldText (key, value)).toList ++ rest =
      (stringText key).toList ++ ':' :: (value.text.toList ++ rest) := by
    simp [fieldText]
  rw [htext]
  exact hscan (scan?_of_read? rfl rfl (Nat.le_refl _) (h.2 hends hmore))

theorem exists_forall₂ {α β : Type} {r : β → α → Prop} {l : List α} (h : ∀ a ∈ l, ∃ b, r b a) :
    ∃ bs, List.Forall₂ r bs l := by
  induction l with
  | nil => exact ⟨[], .nil⟩
  | cons a l ih =>
    obtain ⟨b, hb⟩ := h a List.mem_cons_self
    obtain ⟨bs, hbs⟩ := ih fun a ha => h a (List.mem_cons_of_mem _ ha)
    exact ⟨b :: bs, .cons hb hbs⟩

theorem Exact.exists_prints {j : Json} (h : j.Exact) : ∃ s, Prints s j := by
  induction h with
  | null => exact ⟨.null, .null, fun _ hscan => scan?_of_read? rfl rfl (by simp; omega) hscan⟩
  | bool b =>
    refine ⟨.bool b, .bool b, fun _ hscan => ?_⟩
    cases b with
    | false => exact scan?_of_read? rfl rfl (by simp; omega) hscan
    | true => exact scan?_of_read? rfl rfl (by simp; omega) hscan
  | @integer i hmin hmax =>
    exact ⟨.number (.ofInt i), .number (Numeral.number?_ofInt hmin hmax),
      fun hends hscan => scan?_integer hends hscan i⟩
  | string s =>
    obtain ⟨pieces, hpieces, hscan⟩ := scan?_string s
    exact ⟨.string pieces, .string hpieces, fun _ hmore => hscan hmore⟩
  | array _ ih =>
    obtain ⟨items, hitems⟩ := exists_forall₂ ih
    exact ⟨.array items, prints_array hitems⟩
  | @object fields _ ih =>
    obtain ⟨entries, hentries⟩ : ∃ entries, List.Forall₂ PrintsField entries fields := by
      refine exists_forall₂ fun f hf => ?_
      obtain ⟨s, hs⟩ := ih f hf
      exact prints_field hs f.1
    exact ⟨.object entries, prints_object hentries⟩

/-- **The text of a value is read as a spelling of the value.** -/
theorem Exact.read?_text {j : Json} (h : j.Exact) :
    ∃ s : Spelling, Spelling.read? j.text = some s ∧ s.Spells j := by
  obtain ⟨s, hspells, hlexes⟩ := h.exists_prints
  have hscan := hlexes Numeral.ends_nil (show scan? [] = some [] from rfl)
  rw [List.append_nil, List.append_nil] at hscan
  exact ⟨s, read?_of_scan? hscan, hspells⟩

end LiveDataflow.Json
