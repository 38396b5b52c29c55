import Landscape.Proofs.Grammar.Decides

/-!
# Mending a text behind the place of a failure

Where reading stops, nothing in front of that place is to blame: with other
lexemes from there on the text would have been read (`Mends`). Which ones is told
by the rule that was being followed. It lacks something, and what could have come
is put in, and after it whatever the rules around it still need, which is why a
parser is given together with some lexemes that it reads by themselves.

Two things have to be seen to. What was read up to the place is read again, for
which `Decides` has been made; and what comes behind must not be taken for more
of the same, so that for a parser that goes on as long as it can there is a
condition on what it stands in front of.

Reading may have gone on behind the place of a doubt, if only over lexemes that
the doubt allows for. So what is mended is the last place in a reply, a failure
or a doubt that is not within what was read (`Reply.StopsAt`).
-/

namespace Landscape

/-- A token that stands nowhere. -/
def Token.nowhere (t : Token) : Lexeme :=
  ⟨t, Span.none⟩

namespace Grammar

variable {α β : Type}

/-! ## What can be read -/

/-- In front of what `F` holds of, a parser reads the lexemes `read`. -/
def Takes (p : Parser α) (read : List Lexeme) (F : List Lexeme → Prop) : Prop :=
  ∀ after, F after → ∃ value doubt, p (read ++ after) = .ok value after doubt

namespace Takes

variable {p q : Parser α} {read read' : List Lexeme} {F G : List Lexeme → Prop}

theorem imp (h : Takes p read F) (himp : ∀ after, G after → F after) : Takes p read G :=
  fun after hafter => h after (himp after hafter)

theorem pure {value : α} : Takes (Pure.pure value) [] F :=
  fun _ _ => ⟨value, none, rfl⟩

theorem bind {next : α → Parser β} (hp : Takes p read G)
    (hnext : ∀ value, Takes (next value) read' F)
    (hmid : ∀ after, F after → G (read' ++ after)) : Takes (p >>= next) (read ++ read') F := by
  intro after hafter
  obtain ⟨value, early, hvalue⟩ := hp _ (hmid after hafter)
  obtain ⟨result, late, hresult⟩ := hnext value after hafter
  exact ⟨result, Failure.merge early late, by
    rw [List.append_assoc, Parser.bind_of_ok hvalue, hresult]; rfl⟩

theorem bind_pure {f : α → β} (hp : Takes p read F) :
    Takes (p >>= fun value => Pure.pure (f value)) read F := by
  rw [← List.append_nil read]
  exact hp.bind (fun _ => pure) fun _ hafter => hafter

theorem located {p : Parser (Span → α)} (hp : Takes p read F) :
    Takes (Parser.located p) read F := by
  intro after hafter
  obtain ⟨f, doubt, hf⟩ := hp after hafter
  exact ⟨_, doubt, by rw [Parser.located, hf]⟩

theorem token {accept : Token → Option α} {expected : List Expectation} {x : Lexeme} {value : α}
    (h : accept x.token = some value) : Takes (Parser.token accept expected) [x] F := by
  intro after _
  refine ⟨value, none, ?_⟩
  simp only [List.cons_append, List.nil_append, Parser.token, h]

theorem exactly {x : Lexeme} : Takes (Parser.exactly x.token) [x] F :=
  fun _ _ => ⟨(), none, if_pos rfl⟩

theorem orElse_left (hp : Takes p read F) : Takes (Parser.orElse p q) read F := by
  intro after hafter
  obtain ⟨value, doubt, hvalue⟩ := hp after hafter
  exact ⟨value, doubt, by rw [Parser.orElse, hvalue]⟩

theorem orElse_right (hq : Takes q read F)
    (hfail : ∀ after, F after → ∃ failure, p (read ++ after) = .fail failure) :
    Takes (Parser.orElse p q) read F := by
  intro after hafter
  obtain ⟨failure, hfailure⟩ := hfail after hafter
  obtain ⟨value, doubt, hvalue⟩ := hq after hafter
  exact ⟨value, doubt, by simp only [Parser.orElse, hfailure, hvalue]⟩

theorem optional (hp : Takes p read F) : Takes (Parser.optional p) read F := by
  intro after hafter
  obtain ⟨value, doubt, hvalue⟩ := hp after hafter
  exact ⟨some value, doubt, by rw [Parser.optional, hvalue]⟩

theorem optional_nil (h : ∀ after, F after → ∃ failure, p after = .fail failure) :
    Takes (Parser.optional p) [] F := by
  intro after hafter
  obtain ⟨failure, hfailure⟩ := h after hafter
  exact ⟨none, some failure, by rw [List.nil_append, Parser.optional, hfailure]⟩

theorem many_nil (h : ∀ after, F after → ∃ failure, p after = .fail failure) :
    Takes (Parser.many p) [] F := by
  intro after hafter
  obtain ⟨failure, hfailure⟩ := h after hafter
  exact ⟨[], some failure, Parser.many_of_fail hfailure⟩

/-- One more round is read in front of what a repetition reads. -/
theorem many_cons (hadvances : Advances p) (hp : Takes p read G)
    (hmany : Takes (Parser.many p) read' F) (hmid : ∀ after, F after → G (read' ++ after)) :
    Takes (Parser.many p) (read ++ read') F := by
  intro after hafter
  obtain ⟨value, early, hvalue⟩ := hp _ (hmid after hafter)
  obtain ⟨values, late, hvalues⟩ := hmany after hafter
  rw [List.append_assoc]
  exact ⟨_, _, hadvances.many_of_ok hvalue hvalues⟩

end Takes

/-! ## Where reading stops -/

/-- Where a reply says that reading stopped: at its failure, or at a doubt that is
not within what was read. -/
inductive Reply.StopsAt : Reply α → Failure → Prop
  | ok {value : α} {rest : List Lexeme} {f : Failure} (left : f.rest.length ≤ rest.length) :
      StopsAt (.ok value rest (some f)) f
  | fail {f : Failure} : StopsAt (.fail f) f

namespace Reply.StopsAt

variable {p q : Parser α} {input : List Lexeme} {f : Failure}

theorem suffix (hp : Remains p) (h : (p input).StopsAt f) : f.rest <:+ input := by
  have hinput := hp input
  generalize p input = reply at h hinput
  cases h with
  | ok =>
      cases hinput with
      | ok _ hdoubted => exact hdoubted f rfl
  | fail =>
      cases hinput with
      | fail hleft => exact hleft

theorem rest_eq_of_token {accept : Token → Option α} {expected : List Expectation}
    (h : (Parser.token accept expected input).StopsAt f) : f.rest = input := by
  cases input with
  | nil => cases h; rfl
  | cons x xs =>
      rw [Parser.token] at h
      cases haccept : accept x.token with
      | none =>
          simp only [haccept] at h
          cases h
          rfl
      | some value =>
          simp only [haccept] at h
          cases h

theorem rest_eq_of_exactly {t : Token} (h : (Parser.exactly t input).StopsAt f) :
    f.rest = input := by
  cases input with
  | nil => cases h; rfl
  | cons x xs =>
      rw [Parser.exactly] at h
      split at h <;> cases h
      rfl

/-- Behind an earlier doubt a reply stops where it did, or else at that doubt. -/
theorem after {reply : Reply α} {early : Option Failure} {mid : List Lexeme}
    (h : (reply.after early).StopsAt f) (hreply : reply.LeavesOf mid) (hmid : mid <:+ input)
    (hearly : ∀ e ∈ early, e.LeftOf input) :
    (∃ e ∈ early, e.rest = f.rest ∧ e.rest.length ≤ mid.length) ∨
      ∃ g, reply.StopsAt g ∧ g.rest = f.rest ∧ ∀ e ∈ early, f.rest.length < e.rest.length := by
  cases hreply with
  | @ok value rest late hleft =>
      obtain ⟨hmerge, hle⟩ : Failure.merge early late = some f ∧ f.rest.length ≤ rest.length := by
        rw [Reply.after] at h
        generalize Failure.merge early late = doubt at h
        cases h with
        | ok hle => exact ⟨rfl, hle⟩
      rcases Failure.of_mem_merge hmerge with ⟨g, hg, hplace⟩ | ⟨g, hg, hplace, hfurther⟩
      · exact .inl ⟨g, hg, hplace, hplace ▸ Nat.le_trans hle hleft.length_le⟩
      · obtain rfl := Option.mem_def.1 hg
        exact .inr ⟨g, .ok (by rwa [hplace]), hplace, hfurther⟩
  | @fail late hleft =>
      cases early with
      | none =>
          cases h
          exact .inr ⟨_, .fail, rfl, fun e he => absurd he (Option.not_mem_none e)⟩
      | some e =>
          obtain rfl : f = late.furthest e := by cases h; rfl
          rcases Failure.rest_furthest late e with ⟨hplace, -⟩ | ⟨hplace, hlt⟩
          · by_cases hlt : late.rest.length < e.rest.length
            · refine .inr ⟨late, .fail, hplace.symm, ?_⟩
              rintro _ ⟨⟩
              rwa [hplace]
            · -- If both are at one place, either can be taken.
              have hle : e.rest.length ≤ late.rest.length := Nat.not_lt.1 hlt
              have hsuffix := List.suffix_of_suffix_length_le (hearly e rfl)
                (hleft.trans hmid) hle
              have hsame : e.rest.length = late.rest.length := by
                have hlate := (Failure.length_rest_furthest_le late e).2
                rw [hplace] at hlate
                omega
              refine .inl ⟨e, rfl, ?_, Nat.le_trans hle hleft.length_le⟩
              rw [hplace, hsuffix.eq_of_length hsame]
          · exact .inl ⟨e, rfl, hplace.symm, Nat.le_trans (Nat.le_of_lt hlt) hleft.length_le⟩

/-- A sequence stops with its first part, or else with the rest of it, at a place
behind that of any doubt before. -/
theorem bind {next : α → Parser β} (hp : Remains p) (hnext : ∀ value, Remains (next value))
    (h : ((p >>= next) input).StopsAt f) :
    (∃ g, (p input).StopsAt g ∧ g.rest = f.rest) ∨
      ∃ value mid early g, p input = .ok value mid early ∧ (next value mid).StopsAt g ∧
        g.rest = f.rest ∧ ∀ e ∈ early, f.rest.length < e.rest.length := by
  cases hvalue : p input with
  | fail failure =>
      rw [Parser.bind_of_fail hvalue] at h
      cases h
      exact .inl ⟨_, .fail, rfl⟩
  | ok value mid early =>
      rw [Parser.bind_of_ok hvalue] at h
      have hinput := hp input
      rw [hvalue] at hinput
      cases hinput with
      | ok hmid hearly =>
          rcases h.after (hnext value mid) hmid hearly with
            ⟨e, he, hplace, hle⟩ | ⟨g, hstops, hplace, hfurther⟩
          · obtain rfl := Option.mem_def.1 he
            exact .inl ⟨e, .ok hle, hplace⟩
          · exact .inr ⟨value, mid, early, g, rfl, hstops, hplace, hfurther⟩

theorem bind_pure {g : α → β} (h : ((p >>= fun value => Pure.pure (g value)) input).StopsAt f) :
    (p input).StopsAt f := by
  cases hvalue : p input with
  | fail failure =>
      rw [Parser.bind_of_fail hvalue] at h
      cases h
      exact .fail
  | ok value rest doubt =>
      rw [Parser.bind_of_ok hvalue] at h
      cases doubt with
      | none => cases h
      | some e =>
          cases h with
          | ok hle => exact .ok hle

theorem located {p : Parser (Span → α)} (h : (Parser.located p input).StopsAt f) :
    (p input).StopsAt f := by
  rw [Parser.located] at h
  cases hvalue : p input with
  | fail failure =>
      simp only [hvalue] at h
      cases h
      exact .fail
  | ok value rest doubt =>
      simp only [hvalue] at h
      cases h with
      | ok hle => exact .ok hle

theorem many_of_declines (h : (Parser.many p input).StopsAt f) (hp : p.Declines input) :
    f.rest = input := by
  obtain ⟨expected, hfail⟩ := hp
  rw [Parser.many_of_fail hfail] at h
  cases h
  rfl

/-- A repetition stops with one of its rounds, if not with those after it, at a
place behind that of any doubt before. -/
theorem many_of_ok (hp : Remains p) (hadvances : Advances p) {value : α} {mid : List Lexeme}
    {early : Option Failure} (hvalue : p input = .ok value mid early)
    (h : (Parser.many p input).StopsAt f) :
    (∃ g, (p input).StopsAt g ∧ g.rest = f.rest) ∨
      ∃ g, (Parser.many p mid).StopsAt g ∧ g.rest = f.rest ∧
        ∀ e ∈ early, f.rest.length < e.rest.length := by
  obtain ⟨values, final, late, hlater⟩ := Parser.exists_many_eq p mid
  rw [hadvances.many_of_ok hvalue hlater] at h
  have hstops : ((Parser.many p mid).after early).StopsAt f := by
    rw [hlater, Reply.after]
    generalize Failure.merge early late = doubt at h
    cases h with
    | ok hle => exact .ok hle
  have hinput := hp input
  rw [hvalue] at hinput ⊢
  cases hinput with
  | ok hmid hearly =>
      rcases hstops.after (hp.many mid) hmid hearly with ⟨e, he, hplace, hle⟩ | hlater
      · obtain rfl := Option.mem_def.1 he
        exact .inl ⟨e, .ok hle, hplace⟩
      · exact .inr hlater

/-- Where an alternative is given up for another one, the place is that of the
other one; where both fail it is the further one. -/
theorem orElse (h : (Parser.orElse p q input).StopsAt f) :
    (∃ g, (p input).StopsAt g ∧ g.rest = f.rest) ∨
      ∃ failure g, p input = .fail failure ∧ (q input).StopsAt g ∧ g.rest = f.rest ∧
        ((∃ value rest doubt, q input = .ok value rest doubt) ∨
          f.rest.length < failure.rest.length) := by
  rw [Parser.orElse] at h
  cases hvalue : p input with
  | ok value rest doubt =>
      simp only [hvalue] at h
      exact .inl ⟨f, h, rfl⟩
  | fail a =>
      simp only [hvalue] at h
      cases hother : q input with
      | ok value rest doubt =>
          simp only [hother] at h
          exact .inr ⟨a, f, rfl, h, rfl, .inl ⟨value, rest, doubt, rfl⟩⟩
      | fail b =>
          simp only [hother] at h
          obtain rfl : f = a.furthest b := by cases h; rfl
          rcases Failure.rest_furthest a b with ⟨hplace, -⟩ | ⟨hplace, hlt⟩
          · exact .inl ⟨a, .fail, hplace.symm⟩
          · exact .inr ⟨a, b, rfl, .fail, hplace.symm, .inr (by rwa [hplace])⟩

theorem optional (h : (Parser.optional p input).StopsAt f) : (p input).StopsAt f := by
  rw [Parser.optional] at h
  cases hvalue : p input with
  | fail failure =>
      simp only [hvalue] at h
      cases h
      exact .fail
  | ok value rest doubt =>
      simp only [hvalue] at h
      cases h with
      | ok hle => exact .ok hle

end Reply.StopsAt

/-! ## Mending -/

/-- Where a parser stops on some input, it reads what is in front of that place
with other lexemes behind it. -/
def MendsAt (p : Parser α) (F : List Lexeme → Prop) (input : List Lexeme) : Prop :=
  ∀ f, (p input).StopsAt f → ∃ front more, input = front ++ f.rest ∧ Takes p (front ++ more) F

/-- Only the place of a failure matters. -/
theorem MendsAt.exists_of_rest_eq {p : Parser α} {F : List Lexeme → Prop} {input : List Lexeme}
    {f g : Failure} (h : MendsAt p F input) (hstops : (p input).StopsAt g)
    (hplace : g.rest = f.rest) :
    ∃ front more, input = front ++ f.rest ∧ Takes p (front ++ more) F := by
  rw [← hplace]
  exact h g hstops

/-- In front of what `F` holds of, a parser reads the lexemes `fill`, and any
input is mended where it stops. -/
structure Mends (p : Parser α) (fill : List Lexeme) (F : List Lexeme → Prop) : Prop where
  remains : Remains p
  fills : Takes p fill F
  mended : ∀ input, MendsAt p F input

namespace Mends

variable {p q : Parser α} {fill fill' : List Lexeme} {F G : List Lexeme → Prop}

theorem imp (h : Mends p fill F) (himp : ∀ after, G after → F after) : Mends p fill G := by
  refine ⟨h.remains, h.fills.imp himp, fun input f hstops => ?_⟩
  obtain ⟨front, more, hinput, htakes⟩ := h.mended input f hstops
  exact ⟨front, more, hinput, htakes.imp himp⟩

/-! ## Sequences -/

/-- What is put in for the first part is followed by what the second one needs;
where the second part stops, the first one is read as before. -/
theorem bind {next : α → Parser β} (hp : Mends p fill G) (hdecides : Decides p fun _ => True)
    (hnext : ∀ value, Mends (next value) fill' F) (hmid : ∀ after, F after → G (fill' ++ after)) :
    Mends (p >>= next) (fill ++ fill') F := by
  refine ⟨hp.remains.bind fun value => (hnext value).remains,
    hp.fills.bind (fun value => (hnext value).fills) hmid, fun input f h => ?_⟩
  rcases h.bind hp.remains fun value => (hnext value).remains with
    ⟨g, hstops, hplace⟩ | ⟨value, mid, early, g, hvalue, hstops, hplace, hfurther⟩
  · obtain ⟨front, more, hinput, htakes⟩ := (hp.mended input).exists_of_rest_eq hstops hplace
    refine ⟨front, more ++ fill', hinput, ?_⟩
    rw [← List.append_assoc]
    exact htakes.bind (fun value => (hnext value).fills) hmid
  · obtain ⟨front, more, rfl, htakes⟩ := (hnext value).mended mid g hstops
    obtain ⟨read, rfl⟩ := hp.remains.suffix hvalue
    refine ⟨read ++ front, more, by rw [hplace, List.append_assoc], fun after hafter => ?_⟩
    rw [← List.append_assoc] at hvalue
    rw [hplace] at hvalue
    obtain ⟨early', hkept⟩ := hdecides.kept hvalue
      (fun e he => ⟨hfurther e he, fun _ => trivial⟩) (more ++ after)
    obtain ⟨result, late, hresult⟩ := htakes after hafter
    rw [List.append_assoc] at hresult
    refine ⟨result, Failure.merge early' late, ?_⟩
    rw [List.append_assoc, Parser.bind_of_ok hkept, hresult]
    rfl

theorem bind_pure {f : α → β} (hp : Mends p fill F) :
    Mends (p >>= fun value => Pure.pure (f value)) fill F := by
  refine ⟨hp.remains.bind fun _ => .pure, hp.fills.bind_pure, fun input f h => ?_⟩
  obtain ⟨front, more, hinput, htakes⟩ := hp.mended input f h.bind_pure
  exact ⟨front, more, hinput, htakes.bind_pure⟩

theorem map {f : α → β} (hp : Mends p fill F) : Mends (f <$> p) fill F :=
  hp.bind_pure

theorem located {p : Parser (Span → α)} (hp : Mends p fill F) :
    Mends (Parser.located p) fill F := by
  refine ⟨hp.remains.located, hp.fills.located, fun input f h => ?_⟩
  obtain ⟨front, more, hinput, htakes⟩ := hp.mended input f h.located
  exact ⟨front, more, hinput, htakes.located⟩

/-! ## Single tokens -/

/-- A parser that stops nowhere but where it starts is mended with what it reads. -/
theorem of_rest_eq (hremains : Remains p) (hfills : Takes p fill F)
    (h : ∀ input f, (p input).StopsAt f → f.rest = input) : Mends p fill F :=
  ⟨hremains, hfills, fun input f hstops => ⟨[], fill, (h input f hstops).symm, hfills⟩⟩

theorem token {accept : Token → Option α} {expected : List Expectation} {t : Token} {value : α}
    (h : accept t = some value) : Mends (Parser.token accept expected) [t.nowhere] F :=
  of_rest_eq .token (.token h) fun _ _ hstops => hstops.rest_eq_of_token

theorem exactly {t : Token} : Mends (Parser.exactly t) [t.nowhere] F :=
  of_rest_eq .exactly .exactly fun _ _ hstops => hstops.rest_eq_of_exactly

/-! ## Choice -/

theorem orElse_of (hp : Mends p fill F) (hq : Mends q fill' F)
    (hfail : ∀ input failure f front more, p input = .fail failure → (q input).StopsAt f →
      ((∃ value rest doubt, q input = .ok value rest doubt) ∨
        f.rest.length < failure.rest.length) → input = front ++ f.rest → Takes q (front ++ more) F →
      ∀ after, F after → ∃ failure', p (front ++ more ++ after) = .fail failure') :
    Mends (Parser.orElse p q) fill F := by
  refine ⟨hp.remains.orElse hq.remains, hp.fills.orElse_left, fun input f h => ?_⟩
  rcases h.orElse with ⟨g, hstops, hplace⟩ | ⟨failure, g, hvalue, hstops, hplace, hother⟩
  · obtain ⟨front, more, hinput, htakes⟩ := (hp.mended input).exists_of_rest_eq hstops hplace
    exact ⟨front, more, hinput, htakes.orElse_left⟩
  · obtain ⟨front, more, hinput, htakes⟩ := hq.mended input g hstops
    rw [← hplace] at hother
    refine ⟨front, more, by rwa [← hplace], htakes.orElse_right ?_⟩
    exact hfail input failure g front more hvalue hstops hother hinput htakes

theorem orElse (hp : Mends p fill F) (hq : Mends q fill' F) (hexcludes : p.Excludes q) :
    Mends (Parser.orElse p q) fill F := by
  refine hp.orElse_of hq fun _ _ _ front more _ _ _ _ htakes after hafter => ?_
  obtain ⟨value, doubt, hvalue⟩ := htakes after hafter
  rcases hexcludes (front ++ more ++ after) with hdeclines | hdeclines
  · exact hdeclines.exists_fail
  · exact absurd hvalue hdeclines.ne_ok

theorem orElse_of_within (hp : Mends p fill F) (hq : Mends q fill' F)
    (hfailing : DecidesFailing p)
    (hwithin : ∀ input failure value rest doubt, p input = .fail failure →
      q input = .ok value rest doubt → rest.length < failure.rest.length) :
    Mends (Parser.orElse p q) fill F := by
  refine hp.orElse_of hq fun input failure f front more hvalue hstops hother hinput _ after _ => ?_
  have hprecedes : failure.Precedes f.rest := by
    rcases hother with ⟨value, rest, doubt, hok⟩ | hlt
    · rw [hok] at hstops
      cases hstops with
      | ok hle => exact Nat.lt_of_le_of_lt hle (hwithin _ _ _ _ _ hvalue hok)
    · exact hlt
  rw [hinput] at hvalue
  rw [List.append_assoc]
  exact hfailing _ _ _ hvalue hprecedes _

theorem firstOf_singleton (hp : Mends p fill F) : Mends (Parser.firstOf [p]) fill F := by
  refine ⟨.firstOf (by simpa using hp.remains), hp.fills.orElse_left, fun input f h => ?_⟩
  rcases h.orElse with ⟨g, hstops, hplace⟩ | ⟨failure, g, hvalue, hstops, hplace, hother⟩
  · obtain ⟨front, more, hinput, htakes⟩ := (hp.mended input).exists_of_rest_eq hstops hplace
    exact ⟨front, more, hinput, htakes.orElse_left⟩
  · -- The empty choice fails where it starts, and no failure is in front of that.
    have hle := (hp.remains.suffix_of_fail hvalue).length_le
    rcases hother with ⟨value, rest, doubt, hok⟩ | hlt
    · cases hok
    · rw [← hplace] at hlt
      cases hstops
      exact absurd hlt (Nat.not_lt.2 hle)

theorem optional (hp : Mends p fill F) : Mends (Parser.optional p) fill F := by
  refine ⟨hp.remains.optional, hp.fills.optional, fun input f h => ?_⟩
  obtain ⟨front, more, hinput, htakes⟩ := hp.mended input f h.optional
  exact ⟨front, more, hinput, htakes.optional⟩

/-- What may be left out needs nothing, in front of what it refuses. -/
theorem optional_nil (hp : Mends p fill F)
    (h : ∀ after, F after → ∃ failure, p after = .fail failure) :
    Mends (Parser.optional p) [] F :=
  ⟨hp.remains.optional, .optional_nil h, hp.optional.mended⟩

/-! ## Repetition -/

/-- A repetition is mended with one more round. Between rounds `C` holds because
nothing can be read where it does not. -/
theorem many {C : List Lexeme → Prop} (hp : Mends p fill F) (hadvances : Advances p)
    (hdecides : Decides p C) (hdeclines : ∀ xs, ¬C xs → p.Declines xs)
    (hend : ∀ after, F after → ∃ failure, p after = .fail failure) :
    Mends (Parser.many p) [] F := by
  have once {read : List Lexeme} (h : Takes p read F) : Takes (Parser.many p) read F := by
    rw [← List.append_nil read]
    exact .many_cons hadvances h (.many_nil hend) fun _ hafter => hafter
  refine ⟨hp.remains.many, .many_nil hend, fun input f h => ?_⟩
  induction hk : input.length using Nat.strongRecOn generalizing input f with
  | ind k ih =>
      subst hk
      cases hvalue : p input with
      | fail failure =>
          rw [Parser.many_of_fail hvalue] at h
          cases h
          obtain ⟨front, more, hinput, htakes⟩ := hp.mended input f (by rw [hvalue]; exact .fail)
          exact ⟨front, more, hinput, once htakes⟩
      | ok value mid early =>
          rcases h.many_of_ok hp.remains hadvances hvalue with
            ⟨g, hstops, hplace⟩ | ⟨g, hstops, hplace, hfurther⟩
          · obtain ⟨front, more, hinput, htakes⟩ := (hp.mended input).exists_of_rest_eq hstops hplace
            exact ⟨front, more, hinput, once htakes⟩
          · obtain ⟨front, more, rfl, htakes⟩ :=
              ih mid.length (hadvances.length_lt hvalue) mid g hstops rfl
            obtain ⟨read, rfl⟩ := hp.remains.suffix hvalue
            refine ⟨read ++ front, more, by rw [hplace, List.append_assoc], fun after hafter => ?_⟩
            have hC (e : Failure) (he : e ∈ early)
                (hle : e.rest.length ≤ (front ++ g.rest).length) :
                C (front ++ g.rest) := Classical.byContradiction fun hC => by
              have hlt := hfurther e he
              rw [← hstops.many_of_declines (hdeclines _ hC), hplace] at hle
              exact Nat.not_lt.2 hle hlt
            rw [← List.append_assoc] at hvalue
            obtain ⟨early', hkept⟩ := hdecides.kept hvalue (fun e he =>
              ⟨by rw [Failure.Precedes, hplace]; exact hfurther e he, hC e he⟩) (more ++ after)
            obtain ⟨values, late, hvalues⟩ := htakes after hafter
            rw [List.append_assoc] at hvalues
            rw [List.append_assoc]
            exact ⟨_, _, hadvances.many_of_ok hkept hvalues⟩

/-- Items with commas between them, in front of anything but another comma. -/
theorem separated (hp : ∀ F, Mends p fill F) (hdecides : Decides p fun _ => True)
    (hadvances : Advances p) : Mends (Parser.separated p) fill (Avoids .comma) := by
  have item : Mends (do Parser.exactly .comma; p) (Token.comma.nowhere :: fill)
      (Avoids .comma) :=
    bind (exactly (F := fun _ => True)) .exactly (fun _ => hp _) fun _ _ => trivial
  have advances : Advances (do Parser.exactly .comma; p) :=
    .bind_right (.exactly rfl) fun _ => hadvances
  have decides : Decides (do Parser.exactly .comma; p) fun _ => True :=
    .bind .exactly fun _ => hdecides
  have others : Mends (Parser.many do Parser.exactly .comma; p) [] (Avoids .comma) :=
    item.many advances decides (fun _ h => absurd trivial h) fun after hafter =>
      (Parser.Declines.exactly hafter).bind.exists_fail
  have all := (hp fun _ => True).bind hdecides (fun first => others.bind_pure
    (f := fun others => first :: others)) fun _ _ => trivial
  rwa [List.append_nil] at all

theorem between {opening closing : Token} (hp : Mends p fill G)
    (hdecides : Decides p fun _ => True)
    (hclosing : ∀ after, G (closing.nowhere :: after)) :
    Mends (Parser.between opening closing p)
      (opening.nowhere :: (fill ++ [closing.nowhere])) F :=
  bind (exactly (F := fun _ => True)) .exactly
    (fun _ => hp.bind hdecides (fun _ => exactly.bind_pure) fun after _ => hclosing after)
    fun _ _ => trivial

/-! ## Words -/

theorem name : Mends name [(Token.name "x").nowhere] F :=
  token rfl

theorem value : Mends value [(Token.name "x").nowhere] F :=
  token rfl

theorem reference : Mends reference [(Token.name "x").nowhere] F :=
  located name.bind_pure

theorem references : Mends references [(Token.name "x").nowhere] (Avoids .comma) :=
  separated (fun _ => reference) .reference (.located (.bind .token fun _ => .pure))

theorem attributeSetting : Mends attributeSetting
    [(Token.name "x").nowhere, Token.equals.nowhere, (Token.name "x").nowhere]
    (Avoids .comma) :=
  located <| bind (name (F := fun _ => True)) .token
    (fun _ => bind (exactly (F := fun _ => True)) .exactly
      (fun _ => (separated (fun _ => value) .token .token).bind_pure)
      fun _ _ => trivial)
    fun _ _ => trivial

theorem roles : Mends roles
    [Token.openBracket.nowhere, (Token.name "x").nowhere, Token.closeBracket.nowhere] F :=
  between (separated (fun _ => name) .token .token)
    (.separated .token .token .token) fun _ => nofun

end Mends

end Grammar

end Landscape
