import Landscape.Proofs.Grammar.Mends

/-!
# Between braces

What stands between braces that belong together is read without a look behind
them, so whatever follows may be changed (`Decides.braced`). And where reading
stops between braces, there is nothing else to see to than the closing one: it
is put in behind what mends the inside (`Mends.braced`).

Nothing is asked of the inside but that it could be read in front of a closing
brace. It need not tell by its doubt what was read, which bodies do not.
-/

namespace Landscape.Grammar

variable {α β : Type}

/-- The first lexeme is a closing brace. -/
def Closes (xs : List Lexeme) : Prop :=
  (xs.map Lexeme.token).head? = some .closeBrace

theorem Closes.isBrace {t : Token} {xs : List Lexeme} (h : Closes xs)
    (ht : t ∈ (xs.map Lexeme.token).head?) : t.isBrace := by
  rw [Option.mem_def, h] at ht
  obtain rfl := Option.some.inj ht
  rfl

theorem Closes.avoids {t : Token} {xs : List Lexeme} (h : Closes xs) (ht : t ≠ .closeBrace) :
    Avoids t xs := fun heq =>
  ht (Option.some.inj (heq.symm.trans h))

section

variable {p : Parser α} {value : α} {rest : List Lexeme} {doubt : Option Failure}

theorem braced_of_ok {opening closing : Lexeme} {xs : List Lexeme}
    (hopening : opening.token = .openBrace) (hclosing : closing.token = .closeBrace)
    (h : p xs = .ok value (closing :: rest) doubt) :
    Parser.braced p (opening :: xs) = .ok value rest doubt := by
  rw [Confined.braced_cons, if_pos hopening, h]
  simp only [Parser.exactly, if_pos hclosing]

theorem exists_of_braced_eq_ok (hp : ReadsBalanced p) {input : List Lexeme}
    (h : Parser.braced p input = .ok value rest doubt) :
    ∃ opening inside closing, input = opening :: (inside ++ closing :: rest) ∧
      opening.token = .openBrace ∧ closing.token = .closeBrace ∧
      p (inside ++ closing :: rest) = .ok value (closing :: rest) doubt := by
  cases input with
  | nil => cases h
  | cons opening xs =>
      rw [Confined.braced_cons] at h
      split at h
      · next hopening =>
          cases hvalue : p xs with
          | fail failure => simp [hvalue] at h
          | ok value' mid doubt' =>
              simp only [hvalue] at h
              cases mid with
              | nil => cases h
              | cons closing mid =>
                  rw [Parser.exactly] at h
                  by_cases hclosing : closing.token = .closeBrace
                  · simp only [if_pos hclosing] at h
                    obtain ⟨rfl, rfl, rfl⟩ := Reply.ok.inj h
                    obtain ⟨inside, rfl, -⟩ := hp _ _ _ _ hvalue
                    exact ⟨opening, inside, closing, rfl, hopening, hclosing, hvalue⟩
                  · simp [if_neg hclosing] at h
      · cases h

/-- What a parser says in front of the brace that closes does not depend on what
is behind it. -/
theorem Confined.kept (hp : ∀ n, Confined n p p) {inside : List Lexeme} {closing : Lexeme}
    (hclosing : closing.token = .closeBrace)
    (h : p (inside ++ closing :: rest) = .ok value (closing :: rest) doubt)
    (rest' : List Lexeme) :
    ∃ doubt', p (inside ++ closing :: rest') = .ok value (closing :: rest') doubt' := by
  have hbalanced : Balanced (inside.map Lexeme.token) := by
    obtain ⟨read, hread, hbalanced⟩ := (hp 0).balanced _ _ _ _ h
    rwa [List.append_cancel_right hread]
  have henclosed : Enclosed ((inside ++ [closing]).map Lexeme.token) := by
    rw [List.map_append, List.map_singleton, hclosing]
    exact .closeBrace hbalanced
  have hsame (ys : List Lexeme) : p (inside ++ closing :: ys) =
      (p (inside ++ [closing])).followedBy ys := by
    rw [List.append_cons]
    exact (hp _).followed _ ys (Nat.le_refl _) henclosed
  rw [hsame] at h ⊢
  cases hreply : p (inside ++ [closing]) with
  | fail failure =>
      rw [hreply] at h
      cases h
  | ok value' last doubt' =>
      rw [hreply, Reply.followedBy] at h
      obtain ⟨rfl, hlast, -⟩ := Reply.ok.inj h
      have hlast : last ++ rest = [closing] ++ rest := hlast
      obtain rfl := List.append_cancel_right hlast
      exact ⟨_, rfl⟩

theorem Decides.braced {C : List Lexeme → Prop} (hp : ∀ n, Confined n p p)
    (hremains : Remains p) : Decides (Parser.braced p) C := by
  refine ⟨.between hremains, fun {front rest tail value doubt} h _ tail' => ?_⟩
  obtain ⟨opening, inside, closing, hinput, hopening, hclosing, hvalue⟩ :=
    exists_of_braced_eq_ok (hp 0).balanced h
  obtain rfl : front = opening :: (inside ++ closing :: rest) := by
    have hfront : front ++ tail = opening :: (inside ++ closing :: rest) ++ tail := by
      rw [hinput]
      simp
    exact List.append_cancel_right hfront
  obtain ⟨doubt', hkept⟩ := Confined.kept hp hclosing hvalue (rest ++ tail')
  refine ⟨doubt', ?_⟩
  have hbraced := braced_of_ok hopening hclosing hkept
  simpa using hbraced

end

/-- A parser that succeeds everywhere, with a doubt about the lexeme that it
stopped at or a further one. -/
def Doubts (p : Parser α) : Prop :=
  ∀ input, ∃ value rest f, p input = .ok value rest (some f) ∧ f.rest.length ≤ rest.length

theorem Doubts.many {p : Parser α} (hp : Remains p) (hadvances : Advances p) :
    Doubts (Parser.many p) := by
  intro input
  induction hk : input.length using Nat.strongRecOn generalizing input with
  | ind k ih =>
      subst hk
      cases hvalue : p input with
      | fail failure =>
          exact ⟨_, _, failure, Parser.many_of_fail hvalue, (hp.suffix_of_fail hvalue).length_le⟩
      | ok value mid early =>
          obtain ⟨values, rest, f, hlater, hle⟩ :=
            ih mid.length (hadvances.length_lt hvalue) mid rfl
          obtain ⟨g, hg, hplace⟩ := Failure.exists_mem_merge_right (Option.mem_some_self f) early
          have hmany := hadvances.many_of_ok hvalue hlater
          rw [Option.mem_def.1 hg] at hmany
          exact ⟨_, _, g, hmany, Nat.le_trans hplace hle⟩

theorem Doubts.map {p : Parser α} (h : Doubts p) (f : α → β) : Doubts (f <$> p) := by
  intro input
  obtain ⟨value, rest, g, hvalue, hle⟩ := h input
  refine ⟨f value, rest, g, ?_, hle⟩
  show (p >>= fun value => Pure.pure (f value)) input = _
  rw [Parser.bind_of_ok hvalue]
  rfl

/-- What is read in front of a closing brace is read between braces. -/
theorem Takes.braced {p : Parser α} {read : List Lexeme} {F : List Lexeme → Prop}
    {x : Lexeme} (hopening : x.token = .openBrace) (h : Takes p read Closes) :
    Takes (Parser.braced p) (x :: (read ++ [Token.closeBrace.nowhere])) F := by
  intro after _
  obtain ⟨value, doubt, hvalue⟩ := h (Token.closeBrace.nowhere :: after) rfl
  refine ⟨value, doubt, ?_⟩
  rw [List.cons_append, List.append_assoc]
  exact braced_of_ok hopening rfl hvalue

/-- Braces are mended with what mends the inside, and the closing one. -/
theorem MendsAt.braced {p : Parser α} {F : List Lexeme → Prop} {input : List Lexeme}
    (hremains : Remains p) (hfills : Takes p [] Closes) (hdoubts : Doubts p)
    (h : ∀ opening inside, input = opening :: inside → MendsAt p Closes inside) :
    MendsAt (Parser.braced p) F input := by
  intro f hbraced
  have hrest : Remains (do let value ← p; Parser.exactly .closeBrace; return value) :=
    hremains.bind fun _ => .bind .exactly fun _ => .pure
  rcases hbraced.bind .exactly fun _ => hrest with
    ⟨g, hstops, hplace⟩ | ⟨_, mid, _, g, hmark, hstops, hplace, -⟩
  · refine ⟨[], _, ?_, hfills.braced (x := Token.openBrace.nowhere) rfl⟩
    rw [← hplace, hstops.rest_eq_of_exactly]
    rfl
  obtain ⟨opening, rfl, hopening, -⟩ := Parser.exists_of_exactly_eq_ok hmark
  rcases hstops.bind hremains fun _ => .bind .exactly fun _ => .pure with
    ⟨g', hstops', hplace'⟩ | ⟨value, rest, early, g', hvalue, hstops', hplace', hfurther⟩
  · obtain ⟨front, more, rfl, htakes⟩ := h opening mid rfl g' hstops'
    refine ⟨opening :: front, more ++ [Token.closeBrace.nowhere], ?_, ?_⟩
    · rw [← hplace, ← hplace', List.cons_append]
    · rw [List.cons_append, ← List.append_assoc]
      exact htakes.braced hopening
  · -- The doubt about the inside is there already, so the closing brace adds none.
    obtain ⟨value', rest', e, hvalue', hle⟩ := hdoubts mid
    rw [hvalue] at hvalue'
    obtain ⟨-, rfl, rfl⟩ := Reply.ok.inj hvalue'
    have hlt := hfurther e rfl
    rw [← hplace', hstops'.bind_pure.rest_eq_of_exactly] at hlt
    exact absurd hle (Nat.not_le.2 hlt)

theorem Mends.braced {p : Parser α} {F : List Lexeme → Prop} (hp : Mends p [] Closes)
    (hdoubts : Doubts p) :
    Mends (Parser.braced p) [Token.openBrace.nowhere, Token.closeBrace.nowhere] F :=
  ⟨.between hp.remains, hp.fills.braced (x := Token.openBrace.nowhere) rfl,
    fun _ => .braced hp.remains hp.fills hdoubts fun _ inside _ => hp.mended inside⟩

end Landscape.Grammar
