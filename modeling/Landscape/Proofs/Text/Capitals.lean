import Landscape.Text.AsciiCase
import Landscape.Text.Uppercase

/-!
# Two notions of case

The full upper case of a text changes letters of every script and may make the
text longer. Comparing without regard to ASCII case overlooks twenty-six changes
and no others. So a text is told from its own upper case unless there is nothing
outside ASCII for upper case to change (`eqIgnoringAsciiCase_upper_iff`).

Character by character that is plain, and what remains is that texts are compared
as a whole: since no character comes out empty, a text that keeps its length has
been changed in place.
-/

namespace Landscape.Text

/-- Outside ASCII the text is in upper case: each character there is its own. -/
def UpperBeyondAscii (s : String) : Prop :=
  ∀ c ∈ s.toList, 128 ≤ c.toNat → upperChar c = [c]

instance (s : String) : Decidable (UpperBeyondAscii s) :=
  List.decidableBAll (fun c : Char => 128 ≤ c.toNat → upperChar c = [c]) s.toList

/-! ## Characters -/

/-- A fact about ASCII is checked on its numbers. -/
theorem of_ascii {P : Char → Prop} (h : ∀ n < 128, P (Char.ofNat n)) {c : Char}
    (hc : c.toNat < 128) : P c := by
  have hP := h c.toNat hc
  rwa [Char.ofNat_toNat] at hP

theorem toLower_of_not_ascii {c : Char} (h : 128 ≤ c.toNat) : c.toLower = c := by
  refine dif_neg fun hupper => ?_
  have hle : c.toNat ≤ 90 := UInt32.le_iff_toNat_le.1 hupper.2
  omega

theorem upperChar_ne_nil (c : Char) : upperChar c ≠ [] := by
  have hexpansions : ∀ entry ∈ Uppercase.expansions, entry.2 ≠ [] := by decide
  rw [upperChar]
  split
  · exact List.cons_ne_nil _ _
  · split
    · next hfound =>
        have hne := hexpansions _ (List.mem_of_find?_eq_some hfound)
        simpa using hne
    · split <;> exact List.cons_ne_nil _ _

/-- Without regard to ASCII case a character is its own upper case just if it is
in ASCII, or is so at all. -/
theorem map_toLower_upperChar_iff {c : Char} :
    (upperChar c).map Char.toLower = [c.toLower] ↔ (128 ≤ c.toNat → upperChar c = [c]) := by
  rcases Nat.lt_or_ge c.toNat 128 with hlt | hge
  · refine iff_of_true ?_ fun hge => absurd hge (Nat.not_le_of_lt hlt)
    exact of_ascii (P := fun c => (upperChar c).map Char.toLower = [c.toLower]) (by decide) hlt
  · refine ⟨fun h _ => ?_, fun h => by rw [h hge, List.map_singleton]⟩
    obtain ⟨u, hu, hlower⟩ := List.map_eq_singleton_iff.1 h
    rw [toLower_of_not_ascii hge] at hlower
    -- In lower case an ASCII letter is in ASCII still, so this is none.
    have hbeyond : 128 ≤ u.toNat := Nat.le_of_not_lt fun hascii => by
      have hlt := of_ascii (P := fun u => u.toLower.toNat < 128) (by decide) hascii
      rw [hlower] at hlt
      omega
    rw [hu, ← hlower, toLower_of_not_ascii hbeyond]

/-! ## Texts -/

theorem eqIgnoringAsciiCase_iff {a b : String} :
    eqIgnoringAsciiCase a b ↔ a.toList.map Char.toLower = b.toList.map Char.toLower :=
  beq_iff_eq

theorem length_le_length_flatMap_upperChar (cs : List Char) :
    cs.length ≤ (cs.flatMap upperChar).length := by
  induction cs with
  | nil => exact Nat.le_refl 0
  | cons c cs ih =>
      have hpos := List.length_pos_iff.2 (upperChar_ne_nil c)
      rw [List.flatMap_cons, List.length_append, List.length_cons]
      omega

/-- Without regard to ASCII case a text is its own upper case just if it is in
upper case outside ASCII. -/
theorem eqIgnoringAsciiCase_upper_iff {s : String} :
    eqIgnoringAsciiCase (upper s) s ↔ UpperBeyondAscii s := by
  rw [eqIgnoringAsciiCase_iff, toList_upper, UpperBeyondAscii]
  generalize s.toList = cs
  induction cs with
  | nil => simp
  | cons c cs ih =>
      rw [List.flatMap_cons, List.map_append, List.map_cons, List.forall_mem_cons,
        ← map_toLower_upperChar_iff, ← ih, ← List.singleton_append (x := c.toLower)]
      constructor
      · intro h
        -- No character comes out empty, so each of them comes out as one.
        have hlength := congrArg List.length h
        have hpos := List.length_pos_iff.2 (upperChar_ne_nil c)
        have hle := length_le_length_flatMap_upperChar cs
        simp only [List.length_append, List.length_map, List.length_singleton] at hlength
        refine List.append_inj h ?_
        rw [List.length_map, List.length_singleton]
        omega
      · rintro ⟨hc, hcs⟩
        rw [hc, hcs]

end Landscape.Text
