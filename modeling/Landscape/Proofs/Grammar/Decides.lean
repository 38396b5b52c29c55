import Landscape.Proofs.Grammar.Runs

/-!
# How far ahead a reading looks

What a parser reads depends on lexemes that it does not read: an optional part is
left out because of what comes next, and an alternative is given up for what was
found in the middle of it. Such lexemes leave a trace, for the doubt of a success
is at the furthest of them. So with other lexemes behind the place of the doubt
the same is read again (`Decides`), and a failure stays a failure while the
lexeme it complains about stays where it is (`DecidesFailing`).

What leaves no trace is an alternative that was given up for one that succeeded.
It does no harm if it failed within what the other one has read, or if at no
place both get past the first lexeme.

For a body in braces only the first half is shown here. What comes out when
lexemes are changed in a body that was never closed is another matter, so there
is a condition on what is left: it keeps declarations out that stopped in front
of such a body, and nothing else can be read there either.
-/

namespace Landscape.Grammar

variable {α β : Type}

/-- What a parser has read it reads again if only lexemes behind the place of its
doubt are others. If that place is not within what it has read, then `C` is to
hold of what it left. -/
structure Decides (p : Parser α) (C : List Lexeme → Prop) : Prop where
  remains : Remains p
  kept : ∀ {front rest tail value doubt}, p (front ++ tail) = .ok value (rest ++ tail) doubt →
    (∀ f ∈ doubt, f.Precedes tail ∧ (f.rest.length ≤ (rest ++ tail).length → C (rest ++ tail))) →
    ∀ tail', ∃ doubt', p (front ++ tail') = .ok value (rest ++ tail') doubt'

/-- Where a parser fails it fails again if only lexemes behind the place of the
failure are others. -/
def DecidesFailing (p : Parser α) : Prop :=
  ∀ front tail failure, p (front ++ tail) = .fail failure → failure.Precedes tail →
    ∀ tail', ∃ failure', p (front ++ tail') = .fail failure'

/-- The end of a list that is longer than another end has it as its own end. -/
theorem exists_append_of_length_le {xs ys front tail : List Lexeme} (hxs : xs = front ++ tail)
    (hys : ys <:+ xs) (h : tail.length ≤ ys.length) : ∃ rest, ys = rest ++ tail := by
  obtain ⟨rest, hrest⟩ := List.suffix_of_suffix_length_le ⟨front, hxs.symm⟩ hys h
  exact ⟨rest, hrest.symm⟩

namespace Decides

variable {p q : Parser α} {C D : List Lexeme → Prop}

/-! ## Sequences -/

theorem pure {value : α} : Decides (Pure.pure value) C := by
  refine ⟨.pure, fun {front rest tail value doubt} h _ tail' => ?_⟩
  obtain ⟨rfl, hrest, -⟩ : _ ∧ front ++ tail = rest ++ tail ∧ none = doubt := by
    simpa using Reply.ok.inj h
  obtain rfl := List.append_cancel_right hrest
  exact ⟨none, rfl⟩

/-- Where the second part has succeeded nothing is asked of what the first one
left. -/
theorem bind {next : α → Parser β} (hp : Decides p fun _ => True)
    (hnext : ∀ value, Decides (next value) D) : Decides (p >>= next) D := by
  refine ⟨hp.remains.bind fun value => (hnext value).remains,
    fun {front rest tail result doubt} h hdoubt tail' => ?_⟩
  obtain ⟨value, mid, early, late, hvalue, hresult, rfl⟩ := Parser.exists_of_bind_eq_ok h
  obtain ⟨read, rfl⟩ := (hnext value).remains.suffix hresult
  rw [← List.append_assoc] at hvalue hresult
  obtain ⟨early', hfirst⟩ := hp.kept hvalue (fun f hf => by
    obtain ⟨g, hg, hle⟩ := Failure.exists_mem_merge_left hf late
    exact ⟨Nat.lt_of_lt_of_le (hdoubt g hg).1 hle, fun _ => trivial⟩) tail'
  obtain ⟨late', hsecond⟩ := (hnext value).kept hresult (fun f hf => by
    obtain ⟨g, hg, hle⟩ := Failure.exists_mem_merge_right hf early
    exact ⟨Nat.lt_of_lt_of_le (hdoubt g hg).1 hle,
      fun hrest => (hdoubt g hg).2 (Nat.le_trans hle hrest)⟩) tail'
  exact ⟨Failure.merge early' late', by rw [Parser.bind_of_ok hfirst, hsecond]; rfl⟩

theorem bind_pure {f : α → β} (hp : Decides p C) :
    Decides (p >>= fun value => Pure.pure (f value)) C := by
  refine ⟨hp.remains.bind fun _ => .pure, fun {front rest tail result doubt} h hdoubt tail' => ?_⟩
  obtain ⟨value, mid, early, late, hvalue, hresult, rfl⟩ := Parser.exists_of_bind_eq_ok h
  cases hresult
  obtain ⟨early', hfirst⟩ := hp.kept hvalue (fun f hf => by
    obtain ⟨g, hg, hle⟩ := Failure.exists_mem_merge_left hf none
    exact ⟨Nat.lt_of_lt_of_le (hdoubt g hg).1 hle,
      fun hrest => (hdoubt g hg).2 (Nat.le_trans hle hrest)⟩) tail'
  exact ⟨Failure.merge early' none, by rw [Parser.bind_of_ok hfirst]; rfl⟩

theorem map {f : α → β} (hp : Decides p C) : Decides (f <$> p) C :=
  hp.bind_pure

theorem located {p : Parser (Span → α)} (hp : Decides p C) : Decides (Parser.located p) C := by
  refine ⟨hp.remains.located, fun {front rest tail value doubt} h hdoubt tail' => ?_⟩
  rw [Parser.located] at h ⊢
  cases hf : p (front ++ tail) with
  | fail failure => simp [hf] at h
  | ok f rest' doubt' =>
      rw [hf] at h
      obtain ⟨rfl, rfl, rfl⟩ := Reply.ok.inj h
      obtain ⟨later, hlater⟩ := hp.kept hf hdoubt tail'
      obtain ⟨read, hread⟩ := hp.remains.suffix hf
      rw [← List.append_assoc] at hread
      obtain rfl := List.append_cancel_right hread
      refine ⟨later, ?_⟩
      simp only [hlater]
      rw [List.append_assoc, List.append_assoc, spanBetween_eq_spanOf, spanBetween_eq_spanOf]

/-! ## Single tokens -/

theorem token {accept : Token → Option α} {expected : List Expectation} :
    Decides (Parser.token accept expected) C := by
  refine ⟨.token, fun {front rest tail value doubt} h _ tail' => ?_⟩
  obtain ⟨x, hinput, haccept, rfl⟩ := Parser.exists_of_token_eq_ok h
  obtain rfl : front = x :: rest := List.append_cancel_right hinput
  refine ⟨none, ?_⟩
  simp only [List.cons_append, Parser.token, haccept]

theorem exactly {t : Token} : Decides (Parser.exactly t) C := by
  refine ⟨.exactly, fun {front rest tail value doubt} h _ tail' => ?_⟩
  obtain ⟨x, hinput, hx, rfl⟩ := Parser.exists_of_exactly_eq_ok h
  obtain rfl : front = x :: rest := List.append_cancel_right hinput
  exact ⟨none, if_pos hx⟩

/-! ## Choice -/

/-- An alternative that was given up fails again, if that is known whenever the
other one succeeds. -/
theorem orElse_of (hp : Decides p C) (hq : Decides q C)
    (hfail : ∀ {front rest tail : List Lexeme} {failure : Failure} {value : α}
      {doubt : Option Failure}, p (front ++ tail) = .fail failure →
      q (front ++ tail) = .ok value (rest ++ tail) doubt → (∀ f ∈ doubt, f.Precedes tail) →
      ∀ tail' doubt', q (front ++ tail') = .ok value (rest ++ tail') doubt' →
        ∃ failure', p (front ++ tail') = .fail failure') :
    Decides (Parser.orElse p q) C := by
  refine ⟨hp.remains.orElse hq.remains, fun {front rest tail value doubt} h hdoubt tail' => ?_⟩
  rw [Parser.orElse] at h ⊢
  cases hvalue : p (front ++ tail) with
  | ok value' rest' doubt' =>
      simp only [hvalue] at h
      cases h
      obtain ⟨doubt', hkept⟩ := hp.kept hvalue hdoubt tail'
      exact ⟨doubt', by rw [hkept]⟩
  | fail failure =>
      simp only [hvalue] at h
      cases hother : q (front ++ tail) with
      | fail failure' => simp [hother] at h
      | ok value' rest' doubt' =>
          simp only [hother] at h
          cases h
          obtain ⟨doubt', hkept⟩ := hq.kept hother hdoubt tail'
          obtain ⟨failure', hrefused⟩ :=
            hfail hvalue hother (fun f hf => (hdoubt f hf).1) tail' doubt' hkept
          exact ⟨doubt', by simp only [hrefused, hkept]⟩

/-- Of two alternatives that exclude each other the first declines whatever the
second one reads. -/
theorem orElse (hp : Decides p C) (hq : Decides q C) (hexcludes : p.Excludes q) :
    Decides (Parser.orElse p q) C := by
  refine hp.orElse_of hq fun _ _ _ tail' doubt' hkept => ?_
  rcases hexcludes _ with hdeclines | hdeclines
  · exact hdeclines.exists_fail
  · exact absurd hkept hdeclines.ne_ok

/-- The first alternative fails within what the second one reads. -/
theorem orElse_of_within (hp : Decides p C) (hq : Decides q C) (hfailing : DecidesFailing p)
    (hwithin : ∀ input failure value rest doubt, p input = .fail failure →
      q input = .ok value rest doubt → rest.length < failure.rest.length) :
    Decides (Parser.orElse p q) C := by
  refine hp.orElse_of hq fun {front rest tail failure value doubt} hvalue hother _ tail' _ _ => ?_
  have hlt := hwithin _ _ _ _ _ hvalue hother
  rw [List.length_append] at hlt
  exact hfailing _ _ _ hvalue (Nat.lt_of_le_of_lt (Nat.le_add_left _ _) hlt) tail'

theorem firstOf_nil : Decides (Parser.firstOf ([] : List (Parser α))) C :=
  ⟨.firstOf nofun, nofun⟩

theorem firstOf_singleton (hp : Decides p C) : Decides (Parser.firstOf [p]) C :=
  hp.orElse_of firstOf_nil nofun

theorem optional (hp : Decides p C) (hfailing : DecidesFailing p) :
    Decides (Parser.optional p) C := by
  refine ⟨hp.remains.optional, fun {front rest tail value doubt} h hdoubt tail' => ?_⟩
  rw [Parser.optional] at h ⊢
  cases hvalue : p (front ++ tail) with
  | ok value' rest' doubt' =>
      simp only [hvalue] at h
      cases h
      obtain ⟨doubt', hkept⟩ := hp.kept hvalue hdoubt tail'
      exact ⟨doubt', by rw [hkept]⟩
  | fail failure =>
      simp only [hvalue] at h
      obtain ⟨rfl, hrest, rfl⟩ := Reply.ok.inj h
      obtain rfl := List.append_cancel_right hrest
      obtain ⟨failure', hrefused⟩ := hfailing _ _ _ hvalue (hdoubt failure rfl).1 tail'
      exact ⟨some failure', by simp only [hrefused]⟩

/-- A parser of nothing but what starts with the token `t` can be left out where
that token does not come next. -/
theorem optional_avoids {t : Token} (hp : Decides p fun _ => True)
    (hdeclines : ∀ xs, Avoids t xs → p.Declines xs) :
    Decides (Parser.optional p) (Avoids t) := by
  refine ⟨hp.remains.optional, fun {front rest tail value doubt} h hdoubt tail' => ?_⟩
  rw [Parser.optional] at h ⊢
  cases hvalue : p (front ++ tail) with
  | ok value' rest' doubt' =>
      simp only [hvalue] at h
      cases h
      obtain ⟨doubt', hkept⟩ := hp.kept hvalue
        (fun f hf => ⟨(hdoubt f hf).1, fun _ => trivial⟩) tail'
      exact ⟨doubt', by rw [hkept]⟩
  | fail failure =>
      simp only [hvalue] at h
      obtain ⟨rfl, hrest, rfl⟩ := Reply.ok.inj h
      obtain rfl := List.append_cancel_right hrest
      obtain ⟨hprecedes, havoids⟩ := hdoubt failure rfl
      have hle := (hp.remains.suffix_of_fail hvalue).length_le
      obtain ⟨x, xs, rfl⟩ : ∃ x xs, front = x :: xs := by
        refine List.exists_cons_of_ne_nil fun hnil => ?_
        rw [hnil] at hle
        exact absurd hprecedes (Nat.not_lt.2 hle)
      obtain ⟨failure', hrefused⟩ := (hdeclines (x :: xs ++ tail') (havoids hle)).exists_fail
      exact ⟨some failure', by simp only [hrefused]⟩

/-! ## Repetition -/

theorem many (hp : Decides p fun _ => True) (hadvances : Advances p)
    (hfailing : DecidesFailing p) : Decides (Parser.many p) C := by
  refine ⟨hp.remains.many, fun {front rest tail values doubt} h hdoubt tail' => ?_⟩
  replace hdoubt : ∀ f ∈ doubt, f.Precedes tail := fun f hf => (hdoubt f hf).1
  induction hk : front.length using Nat.strongRecOn generalizing front values doubt with
  | ind k ih =>
      subst hk
      cases hvalue : p (front ++ tail) with
      | fail failure =>
          rw [Parser.many_of_fail hvalue] at h
          obtain ⟨rfl, hrest, rfl⟩ := Reply.ok.inj h
          obtain rfl := List.append_cancel_right hrest
          obtain ⟨failure', hrefused⟩ := hfailing _ _ _ hvalue (hdoubt failure rfl) tail'
          exact ⟨some failure', Parser.many_of_fail hrefused⟩
      | ok value mid early =>
          obtain ⟨others, final, late, hothers⟩ := Parser.exists_many_eq p mid
          rw [hadvances.many_of_ok hvalue hothers] at h
          obtain ⟨rfl, rfl, rfl⟩ := Reply.ok.inj h
          obtain ⟨read, rfl⟩ := hp.remains.many.suffix hothers
          rw [← List.append_assoc] at hvalue hothers
          have hlt := hadvances.length_lt hvalue
          obtain ⟨early', hfirst⟩ := hp.kept hvalue (fun f hf => by
            obtain ⟨g, hg, hle⟩ := Failure.exists_mem_merge_left hf late
            exact ⟨Nat.lt_of_lt_of_le (hdoubt g hg) hle, fun _ => trivial⟩) tail'
          obtain ⟨late', hlater⟩ := ih (read ++ rest).length (by simp at hlt ⊢; omega) hothers
            (fun f hf => by
              obtain ⟨g, hg, hle⟩ := Failure.exists_mem_merge_right hf early
              exact Nat.lt_of_lt_of_le (hdoubt g hg) hle) rfl
          exact ⟨_, hadvances.many_of_ok hfirst hlater⟩

end Decides

/-! ## Failures -/

namespace DecidesFailing

variable {p q : Parser α}

theorem of_succeeds (h : Succeeds p) : DecidesFailing p := by
  intro front tail failure hfailure
  obtain ⟨value, rest, doubt, hvalue⟩ := h (front ++ tail)
  rw [hvalue] at hfailure
  cases hfailure

theorem token {accept : Token → Option α} {expected : List Expectation} :
    DecidesFailing (Parser.token accept expected) := by
  intro front tail failure h hprecedes tail'
  cases front with
  | nil => exact absurd hprecedes (Nat.not_lt.2 (Remains.token.suffix_of_fail h).length_le)
  | cons x front =>
      rw [List.cons_append, Parser.token] at h ⊢
      cases haccept : accept x.token with
      | none => exact ⟨_, rfl⟩
      | some value => simp [haccept] at h

theorem exactly {t : Token} : DecidesFailing (Parser.exactly t) := by
  intro front tail failure h hprecedes tail'
  cases front with
  | nil => exact absurd hprecedes (Nat.not_lt.2 (Remains.exactly.suffix_of_fail h).length_le)
  | cons x front =>
      rw [List.cons_append, Parser.exactly] at h ⊢
      by_cases hx : x.token = t
      · rw [if_pos hx] at h
        cases h
      · exact ⟨_, if_neg hx⟩

theorem bind {next : α → Parser β} (hp : DecidesFailing p) (hdecides : Decides p fun _ => True)
    (hnext : ∀ value, DecidesFailing (next value)) (hremains : ∀ value, Remains (next value)) :
    DecidesFailing (p >>= next) := by
  intro front tail failure h hprecedes tail'
  rcases Parser.of_bind_eq_fail h with hfail | ⟨value, mid, early, late, hvalue, hlate, hplace⟩
  · obtain ⟨failure', hrefused⟩ := hp _ _ _ hfail hprecedes tail'
    exact ⟨failure', Parser.bind_of_fail hrefused⟩
  -- The place that is reported is not behind that of either part.
  have hearly : ∀ f ∈ early, f.Precedes tail := by
    rintro f rfl
    subst hplace
    exact Nat.lt_of_lt_of_le hprecedes (Failure.length_rest_furthest_le late f).2
  have hlast : late.Precedes tail := by
    subst hplace
    cases early with
    | none => exact hprecedes
    | some f => exact Nat.lt_of_lt_of_le hprecedes (Failure.length_rest_furthest_le late f).1
  have hmid := ((hremains value).suffix_of_fail hlate).length_le
  obtain ⟨rest, rfl⟩ := exists_append_of_length_le rfl (hdecides.remains.suffix hvalue)
    (Nat.le_trans (Nat.le_of_lt hlast) hmid)
  obtain ⟨early', hkept⟩ := hdecides.kept hvalue (fun f hf => ⟨hearly f hf, fun _ => trivial⟩) tail'
  obtain ⟨late', hrefused⟩ := hnext value _ _ _ hlate hlast tail'
  rw [Parser.bind_of_ok hkept, hrefused]
  exact ⟨_, rfl⟩

theorem bind_pure {f : α → β} (hp : DecidesFailing p) :
    DecidesFailing (p >>= fun value => Pure.pure (f value)) := by
  intro front tail failure h hprecedes tail'
  rcases Parser.of_bind_eq_fail h with hfail | ⟨value, mid, early, late, -, hlate, -⟩
  · obtain ⟨failure', hrefused⟩ := hp _ _ _ hfail hprecedes tail'
    exact ⟨failure', Parser.bind_of_fail hrefused⟩
  · cases hlate

theorem map {f : α → β} (hp : DecidesFailing p) : DecidesFailing (f <$> p) :=
  hp.bind_pure

theorem located {p : Parser (Span → α)} (hp : DecidesFailing p) :
    DecidesFailing (Parser.located p) := by
  intro front tail failure h hprecedes tail'
  rw [Parser.located] at h ⊢
  cases hvalue : p (front ++ tail) with
  | ok value rest doubt => simp [hvalue] at h
  | fail failure' =>
      simp only [hvalue] at h
      cases h
      obtain ⟨failure', hrefused⟩ := hp _ _ _ hvalue hprecedes tail'
      exact ⟨failure', by simp only [hrefused]⟩

theorem orElse (hp : DecidesFailing p) (hq : DecidesFailing q) :
    DecidesFailing (Parser.orElse p q) := by
  intro front tail failure h hprecedes tail'
  rw [Parser.orElse] at h ⊢
  cases hvalue : p (front ++ tail) with
  | ok value rest doubt => simp [hvalue] at h
  | fail a =>
      simp only [hvalue] at h
      cases hother : q (front ++ tail) with
      | ok value rest doubt => simp [hother] at h
      | fail b =>
          simp only [hother] at h
          obtain rfl := Reply.fail.inj h
          have hle := Failure.length_rest_furthest_le a b
          obtain ⟨a', ha⟩ := hp _ _ _ hvalue (Nat.lt_of_lt_of_le hprecedes hle.1) tail'
          obtain ⟨b', hb⟩ := hq _ _ _ hother (Nat.lt_of_lt_of_le hprecedes hle.2) tail'
          exact ⟨a'.furthest b', by simp only [ha, hb]⟩

theorem firstOf {ps : List (Parser α)} (h : ∀ p ∈ ps, DecidesFailing p) :
    DecidesFailing (Parser.firstOf ps) := by
  induction ps with
  | nil => exact fun _ _ _ _ _ _ => ⟨_, rfl⟩
  | cons p ps ih =>
      obtain ⟨hp, hps⟩ := List.forall_mem_cons.1 h
      exact hp.orElse (ih hps)

theorem separated (hp : DecidesFailing p) (hdecides : Decides p fun _ => True) :
    DecidesFailing (Parser.separated p) :=
  hp.bind hdecides (fun _ => of_succeeds .many_pure) fun _ =>
    .bind (.many (.bind .exactly fun _ => hdecides.remains)) fun _ => .pure

end DecidesFailing

/-! ## Rules of the grammar -/

namespace Decides

variable {p : Parser α} {C : List Lexeme → Prop}

theorem separated (hp : Decides p fun _ => True) (hadvances : Advances p)
    (hfailing : DecidesFailing p) : Decides (Parser.separated p) C := by
  have comma : DecidesFailing (do Parser.exactly .comma; p) :=
    .bind .exactly .exactly (fun _ => hfailing) fun _ => hp.remains
  have others : Advances (do Parser.exactly .comma; p) :=
    .bind_right (.exactly rfl) fun _ => hadvances
  exact hp.bind fun _ => bind_pure (many (bind exactly fun _ => hp) others comma)

theorem between {opening closing : Token} (hp : Decides p fun _ => True) :
    Decides (Parser.between opening closing p) C :=
  bind exactly fun _ => hp.bind fun _ => bind exactly fun _ => pure

theorem reference : Decides reference C :=
  located (bind_pure token)

theorem references : Decides references C :=
  separated reference (.located (.bind .token fun _ => .pure)) (.located (.bind_pure .token))

theorem values : Decides (Parser.separated value) C :=
  separated token .token .token

theorem attributeSetting : Decides attributeSetting C :=
  located (bind token fun _ => bind exactly fun _ => bind_pure values)

end Decides

namespace DecidesFailing

theorem references : DecidesFailing references :=
  separated (.located (.bind_pure .token)) .reference

theorem attributeSetting : DecidesFailing attributeSetting :=
  located <| bind token .token
    (fun _ => bind exactly .exactly (fun _ => bind_pure (separated token .token))
      fun _ => .bind (.separated .token) fun _ => .pure)
    fun _ => .bind .exactly fun _ => .bind (.separated .token) fun _ => .pure

theorem roles : DecidesFailing roles :=
  bind exactly .exactly (fun _ => bind (separated token .token)
      (.separated .token .token .token) (fun _ => bind_pure exactly)
      fun _ => .bind .exactly fun _ => .pure)
    fun _ => .bind (.separated .token) fun _ => .bind .exactly fun _ => .pure

end DecidesFailing

end Landscape.Grammar
