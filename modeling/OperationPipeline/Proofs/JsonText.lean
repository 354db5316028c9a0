import OperationPipeline.Json.Reader
import OperationPipeline.Json.Writer

set_option autoImplicit false

/-! # The text of a value tells what the value is

Texts of values are self-delimiting: where the text of a value begins, what follows tells which
value it is and where its text ends (`Json.write_append_inj`). So two values with the same text are
the same. Numbers are left out: the text of one ends only where something else begins.

A string is written so that the reader gets it back, whatever characters it has
(`Json.readString?_written`); the quotes, brackets and commas around the other texts do the rest. -/

namespace OperationPipeline.Json

/-! ## Strings -/

/-- The digits of a control character. -/
theorem hexUnit?_digits : ∀ n < 32,
    hexUnit? '0' '0' (Nat.digitChar (n / 16)) (Nat.digitChar (n % 16)) = some n := by
  decide

theorem control_digits : ∀ n < 32,
    (if n < 0x10 then ['\\', 'u', '0', '0', '0'] ++ Nat.toDigits 16 n
      else ['\\', 'u', '0', '0'] ++ Nat.toDigits 16 n)
      = ['\\', 'u', '0', '0', Nat.digitChar (n / 16), Nat.digitChar (n % 16)] := by
  decide

/-- What is written for a character: a letter after a backslash, a number after a backslash, or the
    character itself. -/
inductive Escapes (c : Char) : List Char → Prop where
  | short {letter : Char} (hletter : letter ≠ 'u') (h : shortEscape? letter = some c) :
    Escapes c ['\\', letter]
  | hex {high low : Char} (hcontrol : c.toNat < 0x20)
      (h : hexUnit? '0' '0' high low = some c.toNat) :
    Escapes c ['\\', 'u', '0', '0', high, low]
  | plain (hquote : c ≠ '"') (hbackslash : c ≠ '\\') (hcontrol : ¬ c.toNat < 0x20) :
    Escapes c [c]

theorem escapes_escaped (c : Char) : Escapes c (escaped c) := by
  unfold escaped
  split
  · subst_vars
    exact .short (by decide) rfl
  rename_i hquote
  split
  · subst_vars
    exact .short (by decide) rfl
  rename_i hbackslash
  -- the five control characters with a letter of their own
  iterate 5
    split
    · subst_vars
      exact .short (by decide) rfl
  by_cases hcontrol : c.toNat < 0x20
  · rw [if_pos hcontrol, control_digits _ hcontrol]
    exact .hex hcontrol (hexUnit?_digits _ hcontrol)
  · rw [if_neg (by omega), if_neg hcontrol]
    exact .plain hquote hbackslash hcontrol

/-- What is written for a character is read as that character. -/
theorem Escapes.readString? {c : Char} {text : List Char} (h : Escapes c text)
    (done rest : List Char) :
    readString? done (text ++ rest) = Json.readString? (c :: done) rest := by
  cases h with
  | @short letter hletter h =>
    simp only [List.cons_append, List.nil_append]
    rw [Json.readString?]
    · simp only [h]
    · exact fun _ _ _ _ _ hunicode => absurd hunicode hletter
  | @hex high low hcontrol h =>
    have hlow : ¬ 0xD800 ≤ c.toNat := by omega
    have hhigh : ¬ 0xDC00 ≤ c.toNat := by omega
    simp only [List.cons_append, List.nil_append]
    rw [Json.readString?]
    simp [h, hlow, hhigh]
  | plain hquote hbackslash hcontrol =>
    simp only [List.cons_append, List.nil_append]
    rw [Json.readString?]
    · rw [if_neg hcontrol]
    · exact hquote
    · exact fun _ _ _ _ _ hescape => absurd hescape hbackslash
    · exact fun _ _ hescape => absurd hescape hbackslash

/-- What is written for a string is read as that string, and no further. -/
theorem readString?_written (done chars rest : List Char) :
    readString? done (chars.flatMap escaped ++ '"' :: rest)
      = some (String.ofList (done.reverse ++ chars), rest) := by
  induction chars generalizing done with
  | nil => rw [List.flatMap_nil, List.nil_append, readString?, List.append_nil]
  | cons c chars ih =>
    rw [List.flatMap_cons, List.append_assoc, (escapes_escaped c).readString?, ih,
      List.reverse_cons, List.append_assoc, List.singleton_append]

theorem writeString_append_inj {text text' : String} {rest rest' : List Char}
    (h : writeString text ++ rest = writeString text' ++ rest') : text = text' ∧ rest = rest' := by
  have hread : ∀ (text : String) (rest : List Char),
      readString? [] ((writeString text ++ rest).drop 1) = some (text, rest) := by
    intro text rest
    have htext : (writeString text ++ rest).drop 1
        = text.toList.flatMap escaped ++ '"' :: rest := by
      simp [writeString]
    rw [htext, readString?_written, List.reverse_nil, List.nil_append, String.ofList_toList]
  have hsame := hread text rest
  rw [h, hread text' rest', Option.some.injEq, Prod.mk.injEq] at hsame
  exact ⟨hsame.1.symm, hsame.2.symm⟩

/-! ## Lists of texts -/

theorem separated_cons (text : List Char) (rest : List (List Char)) :
    separated (text :: rest) = text ++ rest.flatMap (',' :: ·) := by
  induction rest generalizing text with
  | nil => exact (List.append_nil text).symm
  | cons next rest ih => rw [separated, ih, List.flatMap_cons, List.cons_append]; exact nofun

/-- Whether a text begins as that of a value or a field does. -/
def Opens (text : List Char) : Prop :=
  ∃ first rest, text = first :: rest ∧ first ≠ ']' ∧ first ≠ '\x7d'

/-- Texts in a row can be taken as if each had a comma before it. -/
theorem flatMap_of_separated {texts texts' : List (List Char)} {close : Char}
    (hclose : close = ']' ∨ close = '\x7d') (hopens : ∀ text ∈ texts, Opens text)
    (hopens' : ∀ text ∈ texts', Opens text) {rest rest' : List Char}
    (h : separated texts ++ close :: rest = separated texts' ++ close :: rest') :
    texts.flatMap (',' :: ·) ++ close :: rest = texts'.flatMap (',' :: ·) ++ close :: rest' := by
  have hhead : ∀ {text more rest rest' : List Char}, Opens text →
      close :: rest ≠ text ++ more ++ close :: rest' := by
    rintro text more rest rest' ⟨first, later, rfl, hbracket, hbrace⟩ hsame
    obtain ⟨rfl, -⟩ := List.cons.inj hsame
    exact hclose.elim hbracket hbrace
  cases texts with
  | nil =>
    cases texts' with
    | nil => exact h
    | cons text' more' =>
      rw [separated_cons] at h
      exact absurd h (hhead (hopens' _ List.mem_cons_self))
  | cons text more =>
    cases texts' with
    | nil =>
      rw [separated_cons] at h
      exact absurd h.symm (hhead (hopens _ List.mem_cons_self))
    | cons text' more' =>
      rw [separated_cons, separated_cons] at h
      exact congrArg (',' :: ·) h

/-! ## Values -/

mutual

/-- Whether there is no number in a value. -/
def numberless : Json → Bool
  | .null | .bool _ | .string _ => true
  | .number _ => false
  | .array items => numberlessItems items
  | .object fields => numberlessFields fields
termination_by structural value => value

def numberlessItems : List Json → Bool
  | [] => true
  | value :: rest => numberless value && numberlessItems rest
termination_by structural items => items

def numberlessFields : List (String × Json) → Bool
  | [] => true
  | (_, value) :: rest => numberless value && numberlessFields rest
termination_by structural fields => fields

end

theorem opens_write {value : Json} (h : value.numberless = true) : Opens value.write := by
  cases value with
  | null => exact ⟨_, _, rfl, by decide, by decide⟩
  | bool value => cases value <;> exact ⟨_, _, rfl, by decide, by decide⟩
  | number value => exact nomatch h
  | string text => exact ⟨_, _, rfl, by decide, by decide⟩
  | array items => exact ⟨_, _, rfl, by decide, by decide⟩
  | object fields => exact ⟨_, _, rfl, by decide, by decide⟩

theorem opens_of_mem_writeItems {items : List Json} (h : numberlessItems items = true) :
    ∀ text ∈ writeItems items, Opens text := by
  induction items with
  | nil => exact fun _ htext => nomatch htext
  | cons value rest ih =>
    obtain ⟨hvalue, hrest⟩ := Bool.and_eq_true_iff.1 h
    exact List.forall_mem_cons.2 ⟨opens_write hvalue, ih hrest⟩

/-- The text of a field. -/
def writeField (field : String × List Char) : List Char :=
  writeString field.1 ++ ':' :: field.2

theorem opens_of_mem_map_writeField (fields : List (String × List Char)) :
    ∀ text ∈ fields.map writeField, Opens text := by
  intro text htext
  obtain ⟨field, -, rfl⟩ := List.mem_map.1 htext
  exact ⟨_, _, rfl, by decide, by decide⟩

theorem write_array (items : List Json) (rest : List Char) :
    (array items).write ++ rest = '[' :: (separated (writeItems items) ++ ']' :: rest) := by
  simp [write, writeArray]

theorem write_object (fields : List (String × Json)) (rest : List Char) :
    (object fields).write ++ rest
      = '\x7b' :: (separated ((writeFields fields).map writeField) ++ '\x7d' :: rest) := by
  have hfields : (object fields).write
      = '\x7b' :: separated ((writeFields fields).map writeField) ++ ['\x7d'] := rfl
  simp [hfields]

theorem writeFields_cons (key : String) (value : Json) (more : List (String × Json))
    (rest : List Char) :
    ((writeFields ((key, value) :: more)).map writeField).flatMap (',' :: ·) ++ rest
      = ',' :: (writeString key ++ ':' :: (value.write
        ++ (((writeFields more).map writeField).flatMap (',' :: ·) ++ rest))) := by
  simp [writeFields, writeField]

mutual

/-- The text of a value tells what the value is and where its text ends. -/
theorem write_append_inj : (value value' : Json) → value.numberless = true →
    value'.numberless = true → ∀ {rest rest' : List Char},
    value.write ++ rest = value'.write ++ rest' → value = value' ∧ rest = rest'
  | .null, value', _, hvalue', _, _, h => by
    cases value' with
    | null => exact ⟨rfl, List.append_cancel_left h⟩
    | bool value' => cases value' <;> exact nomatch (List.cons.inj h).1
    | number _ => exact nomatch hvalue'
    | string _ | array _ | object _ => exact nomatch (List.cons.inj h).1
  | .bool value, value', _, hvalue', _, _, h => by
    cases value' with
    | null => cases value <;> exact nomatch (List.cons.inj h).1
    | bool value' =>
      cases value <;> cases value' <;>
        first | exact ⟨rfl, List.append_cancel_left h⟩ | exact nomatch (List.cons.inj h).1
    | number _ => exact nomatch hvalue'
    | string _ | array _ | object _ => cases value <;> exact nomatch (List.cons.inj h).1
  | .number _, _, hvalue, _, _, _, _ => nomatch hvalue
  | .string text, value', _, hvalue', _, _, h => by
    cases value' with
    | string text' =>
      obtain ⟨rfl, hrest⟩ := writeString_append_inj h
      exact ⟨rfl, hrest⟩
    | bool value' => cases value' <;> exact nomatch (List.cons.inj h).1
    | number _ => exact nomatch hvalue'
    | null | array _ | object _ => exact nomatch (List.cons.inj h).1
  | .array items, value', hvalue, hvalue', _, _, h => by
    cases value' with
    | array items' =>
      rw [write_array, write_array] at h
      have htexts := flatMap_of_separated (Or.inl rfl) (opens_of_mem_writeItems hvalue)
        (opens_of_mem_writeItems hvalue') (List.cons.inj h).2
      obtain ⟨rfl, hrest⟩ := writeItems_append_inj items items' hvalue hvalue' htexts
      exact ⟨rfl, hrest⟩
    | bool value' => cases value' <;> exact nomatch (List.cons.inj h).1
    | number _ => exact nomatch hvalue'
    | null | string _ | object _ => exact nomatch (List.cons.inj h).1
  | .object fields, value', hvalue, hvalue', _, _, h => by
    cases value' with
    | object fields' =>
      rw [write_object, write_object] at h
      have htexts := flatMap_of_separated (Or.inr rfl) (opens_of_mem_map_writeField _)
        (opens_of_mem_map_writeField _) (List.cons.inj h).2
      obtain ⟨rfl, hrest⟩ := writeFields_append_inj fields fields' hvalue hvalue' htexts
      exact ⟨rfl, hrest⟩
    | bool value' => cases value' <;> exact nomatch (List.cons.inj h).1
    | number _ => exact nomatch hvalue'
    | null | string _ | array _ => exact nomatch (List.cons.inj h).1

theorem writeItems_append_inj : (items items' : List Json) → numberlessItems items = true →
    numberlessItems items' = true → ∀ {rest rest' : List Char},
    (writeItems items).flatMap (',' :: ·) ++ ']' :: rest
      = (writeItems items').flatMap (',' :: ·) ++ ']' :: rest' → items = items' ∧ rest = rest'
  | [], items', _, _, _, _, h => by
    cases items' with
    | nil => exact ⟨rfl, (List.cons.inj h).2⟩
    | cons value' more' => exact nomatch (List.cons.inj h).1
  | value :: more, items', hitems, hitems', _, _, h => by
    cases items' with
    | nil => exact nomatch (List.cons.inj h).1
    | cons value' more' =>
      obtain ⟨hvalue, hmore⟩ := Bool.and_eq_true_iff.1 hitems
      obtain ⟨hvalue', hmore'⟩ := Bool.and_eq_true_iff.1 hitems'
      rw [writeItems, writeItems, List.flatMap_cons, List.flatMap_cons, List.append_assoc,
        List.append_assoc] at h
      obtain ⟨rfl, htexts⟩ := write_append_inj value value' hvalue hvalue' (List.cons.inj h).2
      obtain ⟨rfl, hrest⟩ := writeItems_append_inj more more' hmore hmore' htexts
      exact ⟨rfl, hrest⟩

theorem writeFields_append_inj : (fields fields' : List (String × Json)) →
    numberlessFields fields = true → numberlessFields fields' = true →
    ∀ {rest rest' : List Char},
    ((writeFields fields).map writeField).flatMap (',' :: ·) ++ '\x7d' :: rest
      = ((writeFields fields').map writeField).flatMap (',' :: ·) ++ '\x7d' :: rest' →
    fields = fields' ∧ rest = rest'
  | [], fields', _, _, _, _, h => by
    cases fields' with
    | nil => exact ⟨rfl, (List.cons.inj h).2⟩
    | cons field' more' => exact nomatch (List.cons.inj h).1
  | (key, value) :: more, fields', hfields, hfields', _, _, h => by
    cases fields' with
    | nil => exact nomatch (List.cons.inj h).1
    | cons field' more' =>
      obtain ⟨key', value'⟩ := field'
      obtain ⟨hvalue, hmore⟩ := Bool.and_eq_true_iff.1 hfields
      obtain ⟨hvalue', hmore'⟩ := Bool.and_eq_true_iff.1 hfields'
      rw [writeFields_cons, writeFields_cons] at h
      obtain ⟨rfl, hafter⟩ := writeString_append_inj (List.cons.inj h).2
      obtain ⟨rfl, htexts⟩ := write_append_inj value value' hvalue hvalue' (List.cons.inj hafter).2
      obtain ⟨rfl, hrest⟩ := writeFields_append_inj more more' hmore hmore' htexts
      exact ⟨rfl, hrest⟩

end

/-- Values without numbers are told apart by their compact texts. -/
theorem compact_inj {value value' : Json} (hvalue : value.numberless = true)
    (hvalue' : value'.numberless = true) (h : value.compact = value'.compact) : value = value' := by
  have htexts : value.write ++ [] = value'.write ++ [] := by
    rw [String.ofList_injective h]
  exact (write_append_inj value value' hvalue hvalue' htexts).1

end OperationPipeline.Json
