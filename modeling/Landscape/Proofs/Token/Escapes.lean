import Landscape.Proofs.Token.Stuck

/-!
# Escapes in strings

A string is described twice: its pattern says where it ends, and decoding says
what it means. Here both are held against the items that a string is written
with, each a character for itself or a backslash with a character behind it. The
pattern ends a string behind its items (`StringItem.closing_items`), decoding
gives one character for each of them (`StringItem.decode_items`), and so a string
is read as the meanings of its items.

There is one escape for which the two do not go together. Decoding knows what a
backslash before a line feed means, but the pattern has no such item. A string
with one in it is closed and yet not read: it is reported as a string that never
ends (`not_every_escape`). A line feed without a backslash is like any other
character.
-/

namespace Landscape

open Computability Text

/-- What may stand between quotes: a character for itself, which is neither a
quote nor a backslash, or a backslash with any character behind it. -/
inductive StringItem
  | plain (c : Char) (quote : c ≠ '"') (slash : c ≠ '\\')
  | escape (c : Char)
deriving DecidableEq

namespace StringItem

def text : StringItem → List Char
  | plain c .. => [c]
  | escape c => ['\\', c]

/-- The character that an item stands for. -/
def meaning : StringItem → Char
  | plain c .. => c
  | escape 'n' => '\n'
  | escape 't' => '\t'
  | escape 'r' => '\r'
  | escape c => c

/-- A string as it is written, item by item. -/
def literal (items : List StringItem) : String :=
  String.ofList ('"' :: items.flatMap text ++ ['"'])

variable {items : List StringItem} {rest : List Char}

/-! ## The end of a string -/

/-- The end of a string is behind its items, unless a line feed is escaped. -/
theorem closing_items (items : List StringItem) (rest : List Char) (count : Nat) :
    Quoted.closing count (items.flatMap text ++ '"' :: rest) =
      if escape '\n' ∈ items then none
      else some (count + (items.flatMap text).length + 1) := by
  induction items generalizing count with
  | nil => rfl
  | cons item items ih =>
      cases item with
      | plain c hquote hslash =>
          change Quoted.closing count (c :: (items.flatMap text ++ '"' :: rest)) = _
          rw [Quoted.closing_cons hquote hslash, ih]
          simp only [List.mem_cons, reduceCtorEq, false_or, List.flatMap_cons, text,
            List.length_append, List.length_singleton, Nat.add_assoc]
      | escape c =>
          change (if c = '\n' then none
            else Quoted.closing (count + 2) (items.flatMap text ++ '"' :: rest)) = _
          by_cases hc : c = '\n'
          · subst hc
            rw [if_pos rfl, if_pos List.mem_cons_self]
          · have hmem : escape '\n' ∈ escape c :: items ↔ escape '\n' ∈ items := by
              simp [Ne.symm hc]
            have hlength : ((escape c :: items).flatMap text).length =
                2 + (items.flatMap text).length := by
              rw [List.flatMap_cons, List.length_append]
              rfl
            rw [if_neg hc, ih, hlength]
            simp only [hmem, Nat.add_assoc]

theorem reach_items (items : List StringItem) (rest : List Char) :
    Rule.string.reach ('"' :: (items.flatMap text ++ '"' :: rest)) =
      if escape '\n' ∈ items then 0 else (items.flatMap text).length + 2 := by
  rw [Rule.reach, closing_items]
  split
  · rfl
  · rw [Option.getD_some, Nat.add_comm 1, Nat.add_assoc]

/-! ## The meaning of a string -/

theorem escaped_eq_meaning (c : Char) : Quoted.escaped c = (escape c).meaning := by
  unfold Quoted.escaped
  split <;> simp_all [meaning]

theorem decode_items (items : List StringItem) :
    Quoted.decode (items.flatMap text) = items.map meaning := by
  induction items with
  | nil => rfl
  | cons item items ih =>
      cases item with
      | plain c hquote hslash =>
          simp [text, meaning, Quoted.decode, hslash, ih]
      | escape c =>
          change Quoted.escaped c :: Quoted.decode (items.flatMap text) = _
          rw [ih, escaped_eq_meaning]
          rfl

/-! ## Scanning -/

theorem text_mem_stringItem {item : StringItem} (h : item ≠ escape '\n') :
    item.text ∈ Pattern.stringItem := by
  cases item with
  | plain c hquote hslash => exact Pattern.plain_mem_stringItem hquote hslash
  | escape c => exact Pattern.escaped_mem_stringItem fun hc => h (congrArg escape hc)

theorem flatMap_text_mem (h : escape '\n' ∉ items) :
    items.flatMap text ∈ Pattern.stringItem∗ := by
  induction items with
  | nil => exact Language.nil_mem_kstar _
  | cons item items ih =>
      obtain ⟨hitem, hitems⟩ := not_or.1 (mt List.mem_cons.2 h)
      exact Pattern.append_mem_kstar (text_mem_stringItem (Ne.symm hitem)) (ih hitems)

theorem scan_literal_eq_ok (h : escape '\n' ∉ items) :
    scan (literal items) =
      .ok [⟨.string (String.ofList (items.map meaning)), ⟨0, (literal items).utf8ByteSize⟩⟩] := by
  have hmem : '"' :: items.flatMap text ++ ['"'] ∈ Rule.string.pattern :=
    Rule.mem_pattern_string.2 ⟨_, flatMap_text_mem h, rfl⟩
  obtain ⟨hlongest, hrule⟩ := IsLongest.of_kindOf (r := .string) (by decide) (by decide) hmem
    (fun _ => rfl) (Rule.reach_string hmem [])
  have hscan := scanFrom_append hlongest 0
  have htoken : Rule.string.token? ('"' :: items.flatMap text ++ ['"']) =
      some (.string (String.ofList (items.map meaning))) := by
    simp [Rule.token?, decode_items]
  rw [hrule, htoken, List.append_nil, scanFrom, Nat.zero_add] at hscan
  rw [scan, literal, String.toList_ofList, hscan, ← byteLength_toList, String.toList_ofList]
  rfl

theorem stuck_of_escape_mem (h : escape '\n' ∈ items) (rest : List Char) :
    Stuck ('"' :: (items.flatMap text ++ '"' :: rest)) := by
  refine .string fun w hw hcs => ?_
  have hle := Rule.length_le_reach (r := .string) nofun nofun hw hcs
  rw [reach_items, if_pos h, Nat.le_zero, List.length_eq_zero_iff] at hle
  exact Rule.ne_nil_of_mem_pattern (r := .string) (by decide) hw hle

theorem scan_literal_eq_error (h : escape '\n' ∈ items) :
    scan (literal items) = .error ⟨0, '"'⟩ := by
  rw [scan, literal, String.toList_ofList]
  exact scanFrom_eq_error (stuck_iff.1 (stuck_of_escape_mem h [])).2 0

theorem char_eq_quote {fault : Unreadable} (h : fault.message = "Unterminated string literal") :
    fault.char = '"' := by
  by_contra hquote
  rw [Unreadable.message, if_neg hquote] at h
  have hthird := congrArg (fun s => s.toList[2]?) h
  simp at hthird

/-- Where a string is reported as one that never ends, a quote that follows is
not the end of it, or a line feed is escaped in front of that. -/
theorem escape_mem_of_unterminated {source : String} {fault : Unreadable}
    (h : scan source = .error fault) (hmessage : fault.message = "Unterminated string literal") :
    ∃ before after, source.toList = before ++ '"' :: after ∧ fault.offset = byteLength before ∧
      ∀ (items : List StringItem) rest, after = items.flatMap text ++ '"' :: rest →
        escape '\n' ∈ items := by
  obtain ⟨before, after, hsource, hoffset, hreach⟩ := exists_of_scanFrom_eq_error h
  rw [char_eq_quote hmessage] at hsource hreach
  refine ⟨before, after, hsource, hoffset.trans (Nat.zero_add _), ?_⟩
  rintro items rest rfl
  have hzero := hreach .string (by decide)
  rw [reach_items] at hzero
  by_contra hnone
  rw [if_neg hnone] at hzero
  cases hzero

/-- A string is read as the meanings of its items, and it is one token, unless a
line feed is escaped in it. Only with such an escape is a string that is closed
reported as one that never ends. -/
theorem scan_literal (items : List StringItem) (source : String) (fault : Unreadable) :
    (scan (literal items) =
      if escape '\n' ∈ items then .error ⟨0, '"'⟩
      else .ok [⟨.string (String.ofList (items.map meaning)),
        ⟨0, (literal items).utf8ByteSize⟩⟩]) ∧
    (scan source = .error fault → fault.message = "Unterminated string literal" →
      ∃ before after, source.toList = before ++ '"' :: after ∧
        fault.offset = byteLength before ∧
        ∀ (items : List StringItem) rest, after = items.flatMap text ++ '"' :: rest →
          escape '\n' ∈ items) := by
  refine ⟨?_, escape_mem_of_unterminated⟩
  split
  · next h => exact scan_literal_eq_error h
  · next h => exact scan_literal_eq_ok h

/-- A quote behind an escaped line feed is not seen, and a string in front of it
is read with its escapes and its line feed. -/
theorem scan_literal_brokenLine :
    literal [.plain 'é' (by decide) (by decide), .escape '"', .escape 't',
        .plain '\n' (by decide) (by decide), .escape 'é'] = "\"é\\\"\\t\n\\é\"" ∧
      scan "\"é\\\"\\t\n\\é\"" = .ok [⟨.string "é\"\t\né", ⟨0, 12⟩⟩] ∧
      ∃ before after, "\"\" \"\\\n\"".toList = before ++ '"' :: after ∧
        3 = byteLength before ∧
        ∀ (items : List StringItem) rest, after = items.flatMap text ++ '"' :: rest →
          escape '\n' ∈ items := by
  have hscan : scan "\"\" \"\\\n\"" = .error ⟨3, '"'⟩ := by decide +kernel
  have hread := scan_literal [.plain 'é' (by decide) (by decide), .escape '"', .escape 't',
    .plain '\n' (by decide) (by decide), .escape 'é'] "\"\" \"\\\n\"" ⟨3, '"'⟩
  exact ⟨rfl, hread.1, hread.2 hscan rfl⟩

/-- Not every escape is read: a string may be closed and yet be reported as one
that never ends. -/
theorem not_every_escape :
    ¬∀ items, scan (literal items) =
      .ok [⟨.string (String.ofList (items.map meaning)), ⟨0, (literal items).utf8ByteSize⟩⟩] := by
  intro h
  have hread := h [.escape '\n']
  rw [scan_literal_eq_error List.mem_cons_self] at hread
  cases hread

end StringItem

end Landscape
