import Landscape.Proofs.Grammar.Entries

/-!
# Mending a body

The entries of a body are mended by induction on how much of it there is, and the
cases are what an entry can be. Two of them need care, for in them an entry was
read because something else was not.

Words are skipped because no body comes behind them. What is changed behind the
place where reading stopped must not be a body for them, and it is not: a body
would start where the words end, and there the lexemes are as they were, unless
reading stopped right there (`Heads.replace_behind`).

A key is skipped because no value comes behind its equals sign. Here the value is
what was missing if reading stopped right there, and otherwise there is still
none (`MendsAt.entries_of_key`).
-/

namespace Landscape.Grammar

open Landscape.Grammar.Parser

variable {β : Type} {scope : Scope}

/-- The entries of a body, with `none` for every token that is skipped. -/
def entries (scope : Scope) : Parser (List (Option Entry)) :=
  many (bodyEntry scope (body scope))

theorem body_eq_map : body scope = (fun entries => entries.filterMap id) <$> entries scope :=
  funext (body_eq scope)

theorem Advances.entry : Advances (Grammar.bodyEntry scope (Grammar.body scope)) :=
  bodyEntry .body

theorem Remains.entries : Remains (entries scope) :=
  .many (.bodyEntry .body)

theorem Takes.entries_nil : Takes (entries scope) [] Closes :=
  .many_nil fun _ h => (bodyEntry_declines fun _ => h.isBrace).exists_fail

/-- One more entry is read in front of others. -/
theorem Takes.entries_append {read read' : List Lexeme}
    (h : Takes (entries scope) read' Closes)
    (hentry : ∀ after, Closes after → ∃ value doubt,
      bodyEntry scope (body scope) (read ++ (read' ++ after)) = .ok value (read' ++ after) doubt) :
    Takes (entries scope) (read ++ read') Closes := by
  intro after hafter
  obtain ⟨value, early, hvalue⟩ := hentry after hafter
  obtain ⟨values, late, hvalues⟩ := h after hafter
  rw [List.append_assoc]
  exact ⟨_, _, Advances.entry.many_of_ok hvalue hvalues⟩

theorem Takes.entries_singleton {read : List Lexeme}
    (h : Takes (bodyEntry scope (body scope)) read Closes) :
    Takes (entries scope) read Closes := by
  rw [← List.append_nil read]
  exact Takes.entries_nil.entries_append fun after hafter => h after hafter

/-! ## Bodies and their entries -/

theorem Doubts.body : Doubts (body scope) := by
  rw [body_eq_map]
  exact (Doubts.many (.bodyEntry .body) .entry).map _

theorem Takes.body_nil : Takes (body scope) [] Closes := by
  rw [body_eq_map]
  exact Takes.entries_nil.bind_pure

theorem MendsAt.body {input : List Lexeme} (h : MendsAt (entries scope) Closes input) :
    MendsAt (body scope) Closes input := by
  rw [body_eq_map]
  intro f hstops
  obtain ⟨front, more, hinput, htakes⟩ := h f hstops.bind_pure
  exact ⟨front, more, hinput, htakes.bind_pure⟩

theorem MendsAt.braced_body {F : List Lexeme → Prop} {input : List Lexeme}
    (ih : ∀ rest, rest.length ≤ input.length → MendsAt (entries scope) Closes rest) :
    MendsAt (Parser.braced (Grammar.body scope)) F input :=
  .braced .body .body_nil .body fun _ inside hinput =>
    .body (ih inside (by rw [hinput]; exact Nat.le_succ _))

theorem Decides.braced_body {C : List Lexeme → Prop} :
    Decides (Parser.braced (Grammar.body scope)) C :=
  braced (fun _ => .body) .body

theorem Closes.braced_declines {p : Parser β} {xs : List Lexeme} (h : Closes xs) :
    (braced p).Declines xs :=
  .bind (.exactly (h.avoids nofun))

/-! ## One entry and those behind it -/

/-- Entries are mended where the first one stops, or else where those behind it
do. In that case the first one has to be read again. -/
theorem MendsAt.entries_of_ok {input rest : List Lexeme} {value : Option Entry}
    {early : Option Failure}
    (hvalue : bodyEntry scope (Grammar.body scope) input = .ok value rest early)
    (hentry : MendsAt (bodyEntry scope (Grammar.body scope)) Closes input)
    (hrest : MendsAt (entries scope) Closes rest)
    (hkept : ∀ read front g, input = read ++ (front ++ g.rest) → rest = front ++ g.rest →
      (entries scope rest).StopsAt g → (∀ e ∈ early, e.Precedes g.rest) → ∀ tail, ∃ value' doubt',
        bodyEntry scope (Grammar.body scope) (read ++ (front ++ tail)) =
          .ok value' (front ++ tail) doubt') :
    MendsAt (entries scope) Closes input := by
  intro f h
  rcases h.many_of_ok (.bodyEntry .body) .entry hvalue with
    ⟨g, hstops, hplace⟩ | ⟨g, hstops, hplace, hfurther⟩
  · obtain ⟨front, more, hinput, htakes⟩ := hentry.exists_of_rest_eq hstops hplace
    exact ⟨front, more, hinput, htakes.entries_singleton⟩
  · obtain ⟨front, more, hfront, htakes⟩ := hrest g hstops
    obtain ⟨read, hread⟩ := Remains.suffix (.bodyEntry .body) hvalue
    rw [hfront] at hread
    refine ⟨read ++ front, more, by rw [← hplace, List.append_assoc, hread], ?_⟩
    rw [List.append_assoc]
    refine htakes.entries_append fun after _ => ?_
    rw [List.append_assoc]
    rw [← hplace] at hfurther
    exact hkept read front g hread.symm hfront hstops hfurther (more ++ after)

/-! ## Tokens that are skipped -/

theorem entries_of_stray {x : Lexeme} {xs rest : List Lexeme} {values : List (Option Entry)}
    {doubt : Option Failure} (hstray : bodyEntry scope (body scope) (x :: xs) = .ok none xs none)
    (h : entries scope xs = .ok values rest doubt) :
    entries scope (x :: xs) = .ok (none :: values) rest doubt := by
  have hall := Advances.entry.many_of_ok hstray h
  cases doubt <;> exact hall

theorem Takes.entries_of_stray {x : Lexeme} {read : List Lexeme}
    (hstray : ∀ after, Closes after → bodyEntry scope (body scope) (x :: (read ++ after)) =
      .ok none (read ++ after) none)
    (h : Takes (entries scope) read Closes) : Takes (entries scope) (x :: read) Closes := by
  have hall : Takes (entries scope) ([x] ++ read) Closes :=
    h.entries_append fun after hafter => ⟨none, none, hstray after hafter⟩
  exact hall

theorem Reply.StopsAt.entries_of_stray {x : Lexeme} {xs : List Lexeme} {f : Failure}
    (hstray : bodyEntry scope (body scope) (x :: xs) = .ok none xs none)
    (h : (entries scope (x :: xs)).StopsAt f) : (entries scope xs).StopsAt f := by
  obtain ⟨values, rest, doubt, hvalues⟩ := exists_many_eq (bodyEntry scope (body scope)) xs
  rw [Grammar.entries_of_stray hstray hvalues] at h
  rw [entries, hvalues]
  cases h with
  | ok hle => exact .ok hle

theorem Heads.skipped {x : Lexeme} {words mid : List Lexeme} {failure : Failure}
    (h : Heads (x :: words) mid) (hbody : braced (body scope) mid = .fail failure) :
    bodyEntry scope (body scope) (x :: (words ++ mid)) = .ok none (words ++ mid) none := by
  have hfails := h.attributeSetting_fails
  cases h with
  | cons hword _ hheads =>
      simp only [isHeadingWord, Bool.not_eq_true', Bool.or_eq_false_iff] at hword
      exact bodyEntry_of_stray hword.1.1 hword.2 hfails (unknownBlock_fails hheads hbody)

/-- Without a body behind them the words of a heading are skipped one by one. -/
theorem Takes.entries_of_heads {words read : List Lexeme}
    (hheads : ∀ after, Closes after →
      Heads words (read ++ after) ∧ (Parser.braced (body scope)).Declines (read ++ after))
    (h : Takes (entries scope) read Closes) : Takes (entries scope) (words ++ read) Closes := by
  induction words with
  | nil => exact h
  | cons x words ih =>
      have hlater : Takes (Grammar.entries scope) (words ++ read) Closes :=
        ih fun after hafter =>
          ⟨by cases (hheads after hafter).1; assumption, (hheads after hafter).2⟩
      rw [List.cons_append]
      refine hlater.entries_of_stray fun after hafter => ?_
      obtain ⟨hheads, failure, hbody⟩ := hheads after hafter
      rw [List.append_assoc]
      exact hheads.skipped hbody

theorem Reply.StopsAt.entries_of_heads {words mid : List Lexeme} {failure f : Failure}
    (hheads : Heads words mid) (hbody : braced (body scope) mid = .fail failure)
    (h : (entries scope (words ++ mid)).StopsAt f) : (entries scope mid).StopsAt f := by
  induction words with
  | nil => exact h
  | cons x words ih =>
      exact ih (by cases hheads; assumption) (h.entries_of_stray (hheads.skipped hbody))

/-- A setting takes two lexemes to see, and entries do not stop before the second
of them. -/
theorem length_add_two_le_of_settingAhead {input : List Lexeme} {f : Failure}
    (hahead : settingAhead input) (h : (entries scope input).StopsAt f) :
    f.rest.length + 2 ≤ input.length := by
  obtain ⟨x, key, y, ys, rfl, hx, hy⟩ : ∃ x key y ys, input = x :: y :: ys ∧
      x.token = .name key ∧ y.token = .equals := by
    rcases input with _ | ⟨x, xs⟩
    · cases hahead
    obtain ⟨⟨key, hx⟩, hequals⟩ := settingAhead_cons.1 hahead
    obtain ⟨y, ys, rfl, hy⟩ := exists_cons_of_not_avoids hequals
    exact ⟨x, key, y, ys, rfl, hx, hy⟩
  suffices hle : f.rest.length ≤ ys.length by simpa using hle
  cases hsetting : attributeSetting (x :: y :: ys) with
  | ok setting rest doubt =>
      obtain ⟨read, hread, hlength⟩ := ReadsAtLeast.attributeSetting _ _ _ _ hsetting
      have hrest : rest.length ≤ ys.length := by
        have heq := congrArg List.length hread
        simp only [List.length_cons, List.length_append] at heq
        omega
      have hentry : bodyEntry scope (body scope) (x :: y :: ys) =
          .ok (some (.setting scope setting)) rest doubt := bodyEntry_of_setting hsetting
      rcases h.many_of_ok (.bodyEntry .body) .entry hentry with
        ⟨g, hstops, hplace⟩ | ⟨g, hstops, hplace, -⟩
      · rw [hentry] at hstops
        cases hstops with
        | ok hle => exact hplace ▸ Nat.le_trans hle hrest
      · exact hplace ▸ Nat.le_trans (hstops.suffix .entries).length_le hrest
  | fail failure =>
      have hplace := rest_eq_of_attributeSetting_eq_fail hx hy hsetting
      cases hreserved : isDeclarationKeyword x.token with
      | true =>
          have hnext (text : String) : Avoids (.name text) (y :: ys) :=
            fun heq => by simp [hy] at heq
          obtain ⟨failure', hentry, hrest⟩ : ∃ failure', bodyEntry scope (body scope)
              (x :: y :: ys) = .fail failure' ∧ failure'.rest = failure.rest :=
            bodyEntry_of_missing .body hreserved (.inr hnext) hsetting
              (by rw [hplace]; exact Nat.le_succ _)
          rw [entries, many_of_fail hentry] at h
          cases h
          exact Nat.le_of_eq (congrArg List.length (hrest.trans hplace))
      | false =>
          have hequals := h.entries_of_stray (bodyEntry_of_key hx hreserved hy ⟨_, hsetting⟩)
          have hvalues := hequals.entries_of_stray
            (bodyEntry_of_not_name (by rw [hy]; rfl) (by simp [hy]) ys)
          exact (hvalues.suffix .entries).length_le

/-- A heading ends where it did if the lexeme is still there that ended it. -/
theorem Heads.replace_behind {words front : List Lexeme} {g : Failure}
    (hheads : Heads words (front ++ g.rest)) (hfront : front ≠ [])
    (hstops : (entries scope (front ++ g.rest)).StopsAt g) (tail : List Lexeme) :
    Heads words (front ++ tail) ∧ (braced (body scope)).Declines (front ++ tail) := by
  obtain ⟨x, front, rfl⟩ := List.exists_cons_of_ne_nil hfront
  constructor
  · refine hheads.replace (headingToken_declines ?_) fun havoids => havoids
    cases hword : isHeadingWord x.token with
    | false => exact .inr (by simp [hword])
    | true =>
        -- It is not the word that ends the heading, so a setting comes next.
        have hahead : settingAhead (x :: (front ++ g.rest)) := by
          refine Classical.byContradiction fun hahead => ?_
          exact hheads.stops.ne_ok (headingToken_eq_ok hword (Bool.eq_false_iff.2 hahead))
        have hlength := length_add_two_le_of_settingAhead hahead hstops
        rcases front with _ | ⟨y, front⟩
        · simp at hlength
        · obtain ⟨hname, hequals⟩ := settingAhead_cons.1 hahead
          exact .inl (settingAhead_cons.2 ⟨hname, hequals⟩)
  · refine .bind (.exactly fun heq => ?_)
    have hopening : x.token = .openBrace := Option.some.inj heq
    have hplace := hstops.many_of_declines (bodyEntry_declines fun t ht => by
      obtain rfl : x.token = t := Option.some.inj ht
      rw [hopening]
      rfl)
    have hlength := congrArg List.length hplace
    simp only [List.length_append, List.length_cons] at hlength
    omega

/-! ## Entries without a heading -/

theorem Takes.attributeSetting {F : List Lexeme → Prop} {x y z : Lexeme} {key text : String}
    (hx : x.token = .name key) (hy : y.token = .equals) (hz : z.token = .name text)
    (hF : ∀ after, F after → Avoids .comma after) :
    Takes Grammar.attributeSetting [x, y, z] F := by
  have name : Takes Grammar.name [x] fun _ => True :=
    token (show _ = some key by rw [hx])
  have first : Takes Grammar.value [z] fun _ => True :=
    token (show _ = some (Value.name text) by rw [hz])
  have values : Takes (Parser.separated Grammar.value) ([z] ++ []) F :=
    first.bind (fun _ => bind_pure (many_nil fun after hafter =>
      (Declines.exactly (hF after hafter)).bind.exists_fail)) fun _ _ => trivial
  have equals : Takes (Parser.exactly .equals) [y] fun _ => True := hy ▸ exactly
  exact located (name.bind (fun _ => equals.bind (fun _ => bind_pure values) fun _ _ => trivial)
    fun _ _ => trivial)

theorem MendsAt.entries_of_setting {input rest : List Lexeme} {setting : Attribute}
    {doubt : Option Failure} (hsetting : attributeSetting input = .ok setting rest doubt)
    (hrest : MendsAt (entries scope) Closes rest) : MendsAt (entries scope) Closes input := by
  refine .entries_of_ok (bodyEntry_of_setting hsetting) (fun f hstops => ?_) hrest
    fun read front g hinput hrest _ hfurther tail => ?_
  · rw [bodyEntry_of_setting hsetting] at hstops
    have hstops : (attributeSetting input).StopsAt f := by
      rw [hsetting]
      cases hstops with
      | ok hle => exact .ok hle
    obtain ⟨front, more, hinput, htakes⟩ := Mends.attributeSetting.mended input f hstops
    refine ⟨front, more, hinput, fun after hafter => ?_⟩
    obtain ⟨_, doubt, hvalue⟩ := htakes after (hafter.avoids nofun)
    exact ⟨_, doubt, bodyEntry_of_setting hvalue⟩
  · rw [hinput, hrest, ← List.append_assoc] at hsetting
    obtain ⟨doubt', hkept⟩ := (Decides.attributeSetting (C := fun _ => True)).kept hsetting
      (fun e he => ⟨hfurther e he, fun _ => trivial⟩) tail
    rw [List.append_assoc] at hkept
    exact ⟨_, doubt', bodyEntry_of_setting hkept⟩

theorem MendsAt.entries_of_not_name {x : Lexeme} {xs : List Lexeme}
    (hbrace : x.token.isBrace = false) (hname : ∀ text, x.token ≠ .name text)
    (hxs : MendsAt (entries scope) Closes xs) : MendsAt (entries scope) Closes (x :: xs) := by
  intro f h
  have hstops := h.entries_of_stray (bodyEntry_of_not_name hbrace hname xs)
  obtain ⟨front, more, rfl, htakes⟩ := hxs f hstops
  exact ⟨x :: front, more, rfl,
    htakes.entries_of_stray fun _ _ => bodyEntry_of_not_name hbrace hname _⟩

/-- A keyword that nothing goes with is mended with a value for it. -/
theorem MendsAt.entries_of_missing {x : Lexeme} {key : String} {xs : List Lexeme}
    {failure : Failure} (hx : x.token = .name key) (hreserved : isDeclarationKeyword x.token)
    (hnested : declares key = false ∨ ∀ text, Avoids (.name text) xs)
    (hsetting : attributeSetting (x :: xs) = .fail failure) :
    MendsAt (entries scope) Closes (x :: xs) := by
  have missing {failure' : Failure} (h : (entries scope (x :: xs)).StopsAt failure')
      (hle : failure.rest.length ≤ xs.length) : failure'.rest = failure.rest := by
    obtain ⟨f, hentry, hplace⟩ : ∃ f, bodyEntry scope (Grammar.body scope) (x :: xs) = .fail f ∧
        f.rest = failure.rest :=
      bodyEntry_of_missing .body hreserved (hnested.imp_left fun hkey keyword heq => by
        obtain rfl : key = keyword := Token.name.inj (hx.symm.trans heq)
        exact hkey) hsetting hle
    rw [entries, many_of_fail hentry] at h
    cases h
    exact hplace
  have setting {read : List Lexeme} (h : Takes attributeSetting read Closes) :
      Takes (entries scope) read Closes := by
    refine .entries_singleton fun after hafter => ?_
    obtain ⟨_, doubt, hvalue⟩ := h after hafter
    exact ⟨_, doubt, bodyEntry_of_setting hvalue⟩
  intro f h
  by_cases hequals : Avoids .equals xs
  · obtain ⟨failure', hfail, hplace⟩ := attributeSetting_of_avoids hx hequals
    obtain rfl := Reply.fail.inj (hsetting.symm.trans hfail)
    have hrest := missing h (Nat.le_of_eq (congrArg List.length hplace))
    refine ⟨[x], [Token.equals.nowhere, (Token.name key).nowhere], by rw [hrest, hplace]; rfl, ?_⟩
    exact setting (.attributeSetting hx rfl rfl fun _ hafter => hafter.avoids nofun)
  · obtain ⟨y, ys, rfl, hy⟩ := exists_cons_of_not_avoids hequals
    have hplace := rest_eq_of_attributeSetting_eq_fail hx hy hsetting
    have hrest := missing h (by rw [hplace]; exact Nat.le_succ _)
    refine ⟨[x, y], [(Token.name key).nowhere], by rw [hrest, hplace]; rfl, ?_⟩
    exact setting (.attributeSetting hx hy rfl fun _ hafter => hafter.avoids nofun)

/-- A key without a value is mended behind its equals sign, unless reading went on
from there. -/
theorem MendsAt.entries_of_key {x y : Lexeme} {key : String} {ys : List Lexeme} {failure : Failure}
    (hx : x.token = .name key) (hreserved : isDeclarationKeyword x.token = false)
    (hy : y.token = .equals) (hsetting : attributeSetting (x :: y :: ys) = .fail failure)
    (hys : MendsAt (entries scope) Closes ys) :
    MendsAt (entries scope) Closes (x :: y :: ys) := by
  have equals (xs : List Lexeme) :
      bodyEntry scope (Grammar.body scope) (y :: xs) = .ok none xs none :=
    bodyEntry_of_not_name (by rw [hy]; rfl) (by simp [hy]) xs
  intro f h
  have hequals := h.entries_of_stray (bodyEntry_of_key hx hreserved hy ⟨_, hsetting⟩)
  obtain ⟨front, more, rfl, htakes⟩ := hys f (hequals.entries_of_stray (equals ys))
  cases front with
  | nil =>
      refine ⟨[x, y], [(Token.name key).nowhere], rfl, .entries_singleton fun after hafter => ?_⟩
      obtain ⟨_, doubt, hvalue⟩ := Takes.attributeSetting (F := Closes) hx hy
        (z := (Token.name key).nowhere) rfl (fun _ hafter => hafter.avoids nofun) after hafter
      exact ⟨_, doubt, bodyEntry_of_setting hvalue⟩
  | cons z front =>
      refine ⟨x :: y :: z :: front, more, rfl, ?_⟩
      refine .entries_of_stray (fun after hafter => bodyEntry_of_key hx hreserved hy ?_)
        (.entries_of_stray (fun _ _ => equals _) htakes)
      -- Reading went on behind the place where there is no value, so there still is none.
      have hplace := rest_eq_of_attributeSetting_eq_fail hx hy hsetting
      have hprecedes : failure.Precedes f.rest := by
        rw [Failure.Precedes, hplace]
        simp only [List.length_append, List.length_cons]
        omega
      have hfails := DecidesFailing.attributeSetting (x :: y :: z :: front) f.rest failure hsetting
        hprecedes (more ++ after)
      simpa using hfails

/-! ## Entries with a heading -/

/-- What starts with `opening` and has a heading is an entry if what `q` reads
comes behind the heading, and nothing else in it is in doubt but where the
heading ends. -/
def Headed (scope : Scope) (opening words : List Lexeme) (q : Parser β) : Prop :=
  ∀ mid value rest late, Heads words mid → q mid = .ok value rest late →
    ∃ entry f, bodyEntry scope (body scope) (opening ++ (words ++ mid)) =
      .ok entry rest (Failure.merge (some f) late) ∧ f.rest = mid

/-- Where a parser stops at a closing brace, it started at a brace. -/
def StartsWithBrace (q : Parser β) : Prop :=
  ∀ input value rest doubt, q input = .ok value rest doubt → Closes rest →
    ∀ t ∈ (input.map Lexeme.token).head?, t.isBrace

theorem StartsWithBrace.braced : StartsWithBrace (Parser.braced (body scope)) := by
  intro input value rest doubt h _ t ht
  obtain ⟨opening, inside, closing, rfl, hopening, -⟩ := exists_of_braced_eq_ok .body h
  obtain rfl : opening.token = t := Option.some.inj ht
  rw [hopening]
  rfl

theorem StartsWithBrace.optional {q : Parser β} (hq : StartsWithBrace q) :
    StartsWithBrace (Parser.optional q) := by
  intro input value rest doubt h hrest t ht
  rw [Parser.optional] at h
  cases hvalue : q input with
  | ok value' rest' doubt' =>
      rw [hvalue] at h
      cases h
      exact hq _ _ _ _ hvalue hrest t ht
  | fail failure =>
      rw [hvalue] at h
      cases h
      exact hrest.isBrace ht

namespace Headed

variable {q : Parser β} {opening words mid read fill : List Lexeme}

theorem takes (h : Headed scope opening words q) (hheads : Heads words mid)
    (hstarts : StartsWithBrace q) (htakes : Takes q read Closes) :
    Takes (bodyEntry scope (body scope)) (opening ++ (words ++ read)) Closes := by
  intro after hafter
  obtain ⟨value, late, hvalue⟩ := htakes after hafter
  have hbrace := hstarts _ _ _ _ hvalue hafter
  obtain ⟨entry, f, hentry, -⟩ := h _ _ _ _ (hheads.replace_of_isBrace hbrace) hvalue
  exact ⟨entry, _, by simpa using hentry⟩

theorem mendsAt (h : Headed scope opening words q) (hheads : Heads words mid)
    (hstarts : StartsWithBrace q) {value : β} {rest : List Lexeme} {late : Option Failure}
    (hvalue : q mid = .ok value rest late) (hfill : Takes q fill Closes)
    (hmends : MendsAt q Closes mid) :
    MendsAt (bodyEntry scope (body scope)) Closes (opening ++ (words ++ mid)) := by
  intro g hstops
  obtain ⟨entry, f, hentry, hf⟩ := h _ _ _ _ hheads hvalue
  obtain ⟨hmerge, hle⟩ : Failure.merge (some f) late = some g ∧ g.rest.length ≤ rest.length := by
    rw [hentry] at hstops
    generalize Failure.merge (some f) late = doubt at hstops
    cases hstops with
    | ok hle => exact ⟨rfl, hle⟩
  rcases Failure.of_mem_merge hmerge with ⟨_, ⟨⟩, hplace⟩ | ⟨e, he, hplace, -⟩
  · refine ⟨opening ++ words, fill, by rw [← hplace, hf, List.append_assoc], ?_⟩
    rw [List.append_assoc]
    exact h.takes hheads hstarts hfill
  · have hstops' : (q mid).StopsAt e := by
      rw [hvalue, Option.mem_def.1 he]
      exact .ok (by rwa [hplace])
    obtain ⟨front, more, rfl, htakes⟩ := hmends e hstops'
    refine ⟨opening ++ (words ++ front), more, by simp [hplace], ?_⟩
    simpa using h.takes hheads hstarts htakes

theorem mendsAt_entries (h : Headed scope opening words q) (hheads : Heads words mid)
    (hstarts : StartsWithBrace q) {value : β} {rest : List Lexeme} {late : Option Failure}
    (hvalue : q mid = .ok value rest late) (hfill : Takes q fill Closes)
    (hmends : MendsAt q Closes mid) (hrest : MendsAt (entries scope) Closes rest)
    (hsuffix : rest <:+ mid)
    (hkept : ∀ used front g, mid = used ++ (front ++ g.rest) → rest = front ++ g.rest →
      (entries scope rest).StopsAt g → g.rest.length < mid.length →
      (∀ e ∈ late, e.Precedes g.rest) → ∀ tail, Heads words (used ++ (front ++ tail)) ∧
        ∃ value' doubt', q (used ++ (front ++ tail)) = .ok value' (front ++ tail) doubt') :
    MendsAt (entries scope) Closes (opening ++ (words ++ mid)) := by
  obtain ⟨entry, f, hentry, hf⟩ := h _ _ _ _ hheads hvalue
  refine .entries_of_ok hentry (h.mendsAt hheads hstarts hvalue hfill hmends) hrest
    fun read front g hinput hfront hstops hfurther tail => ?_
  obtain ⟨used, rfl⟩ := hsuffix
  obtain rfl : opening ++ (words ++ used) = read := by
    rw [← hfront, ← List.append_assoc, ← List.append_assoc] at hinput
    simpa using List.append_cancel_right hinput
  have hlt : g.rest.length < (used ++ rest).length := by
    obtain ⟨e, he, hle⟩ := Failure.exists_mem_merge_left (Option.mem_some_self f) late
    exact hf ▸ Nat.lt_of_lt_of_le (hfurther e he) hle
  have hlate (e : Failure) (he : e ∈ late) : e.Precedes g.rest := by
    obtain ⟨e', he', hle⟩ := Failure.exists_mem_merge_right he (some f)
    exact Nat.lt_of_lt_of_le (hfurther e' he') hle
  obtain ⟨hheads', value', doubt', hvalue'⟩ :=
    hkept used front g (by rw [hfront]) hfront hstops hlt hlate tail
  obtain ⟨entry', f', hentry', -⟩ := h _ _ _ _ hheads' hvalue'
  exact ⟨entry', _, by simpa using hentry'⟩

end Headed

/-- With a body behind the heading, all up to its closing brace is read again. -/
theorem Headed.mendsAt_of_braced {q : Parser β} {opening words mid rest fill : List Lexeme}
    {value : β} {body' : List Entry} {late : Option Failure} (h : Headed scope opening words q)
    (hheads : Heads words mid) (hstarts : StartsWithBrace q)
    (hbraced : braced (body scope) mid = .ok body' rest late)
    (hq : ∀ {input rest doubt}, braced (body scope) input = .ok body' rest doubt →
      q input = .ok value rest doubt)
    (hfill : Takes q fill Closes) (hmends : MendsAt q Closes mid)
    (ih : ∀ rest, rest.length ≤ mid.length → MendsAt (entries scope) Closes rest) :
    MendsAt (entries scope) Closes (opening ++ (words ++ mid)) := by
  have hsuffix := Remains.suffix (.between .body) hbraced
  refine h.mendsAt_entries hheads hstarts (hq hbraced) hfill hmends (ih rest hsuffix.length_le)
    hsuffix fun used front g hmid hrest _ _ hlate tail => ?_
  rw [hmid, hrest, ← List.append_assoc] at hbraced
  obtain ⟨doubt', hkept⟩ := (Decides.braced_body (C := fun _ => True)).kept hbraced
    (fun e he => ⟨hlate e he, fun _ => trivial⟩) tail
  rw [List.append_assoc] at hkept
  refine ⟨hheads.replace_of_isBrace fun t ht => ?_, value, doubt', hq hkept⟩
  obtain ⟨opening, inside, closing, hinput, hopening, -⟩ := exists_of_braced_eq_ok .body hkept
  rw [hinput] at ht
  obtain rfl : opening.token = t := Option.some.inj ht
  rw [hopening]
  rfl

theorem MendsAt.entries_of_declares {keyword text : String} {x y : Lexeme} {words mid : List Lexeme}
    (hx : x.token = .name keyword) (hkeyword : declares keyword) (hy : y.token = .name text)
    (hheads : Heads words mid)
    (ih : ∀ rest, rest.length ≤ mid.length → MendsAt (entries scope) Closes rest) :
    MendsAt (entries scope) Closes (x :: y :: (words ++ mid)) := by
  have headed : Headed scope [x, y] words (Parser.optional (Parser.braced (Grammar.body scope))) :=
    fun _ _ _ _ hheads hbody => bodyEntry_of_declares hx hkeyword hy hheads hbody
  have hstarts : StartsWithBrace (Parser.optional (Parser.braced (Grammar.body scope))) :=
    .optional .braced
  have hfill : Takes (Parser.optional (Parser.braced (Grammar.body scope))) [] Closes :=
    .optional_nil fun after h => h.braced_declines.exists_fail
  have hmends : MendsAt (Parser.optional (Parser.braced (Grammar.body scope))) Closes mid := by
    intro f hstops
    obtain ⟨front, more, hinput, htakes⟩ := MendsAt.braced_body ih f hstops.optional
    exact ⟨front, more, hinput, htakes.optional⟩
  cases hbody : Parser.braced (Grammar.body scope) mid with
  | ok body' rest late =>
      exact headed.mendsAt_of_braced hheads hstarts hbody
        (fun hbraced => by rw [Parser.optional, hbraced]) hfill hmends ih
  | fail failure =>
      have hnone : Parser.optional (Parser.braced (Grammar.body scope)) mid =
          .ok none mid (some failure) := by
        rw [Parser.optional, hbody]
      refine headed.mendsAt_entries hheads hstarts hnone hfill hmends (ih mid (Nat.le_refl _))
        (List.suffix_refl mid) fun used front g hmid hfront hstops hlt _ tail => ?_
      obtain rfl : used = [] := by
        rw [← hfront] at hmid
        simpa using hmid
      have hne : front ≠ [] := by
        rintro rfl
        rw [hfront] at hlt
        exact Nat.lt_irrefl _ hlt
      rw [hfront] at hheads hstops
      obtain ⟨hheads', expected, hdeclined⟩ := hheads.replace_behind hne hstops tail
      exact ⟨hheads', none, _, by rw [List.nil_append, Parser.optional, hdeclined]⟩

theorem MendsAt.entries_of_heads {text : String} {x : Lexeme} {words mid : List Lexeme}
    (hx : x.token = .name text) (hheads : Heads (x :: words) mid)
    (ih : ∀ rest, rest.length ≤ mid.length → MendsAt (entries scope) Closes rest) :
    MendsAt (entries scope) Closes (x :: (words ++ mid)) := by
  cases hbody : Parser.braced (Grammar.body scope) mid with
  | ok body' rest late =>
      have headed : Headed scope [] (x :: words) (Parser.braced (Grammar.body scope)) :=
        fun _ _ _ _ hheads hbody => bodyEntry_of_block hx hheads hbody
      exact headed.mendsAt_of_braced hheads .braced hbody id
        (Takes.body_nil.braced (x := Token.openBrace.nowhere) rfl) (.braced_body ih) ih
  | fail failure =>
      intro f hstops
      have hmid : (entries scope mid).StopsAt f := hstops.entries_of_heads hheads hbody
      obtain ⟨front, more, rfl, htakes⟩ := ih mid (Nat.le_refl _) f hmid
      by_cases hne : front = []
      · subst hne
        refine ⟨x :: words, [], rfl, ?_⟩
        exact Takes.entries_nil.entries_of_heads fun after hafter =>
          ⟨hheads.replace_of_isBrace fun t => hafter.isBrace, hafter.braced_declines⟩
      · refine ⟨x :: (words ++ front), more, by simp, ?_⟩
        have hwords : Takes (entries scope) (x :: words ++ (front ++ more)) Closes :=
          htakes.entries_of_heads fun after _ => by
            rw [List.append_assoc]
            exact hheads.replace_behind hne hmid (more ++ after)
        simpa using hwords

/-! ## Bodies -/

theorem mendsAt_entries (input : List Lexeme) : MendsAt (entries scope) Closes input := by
  induction hk : input.length using Nat.strongRecOn generalizing input with
  | ind k ih =>
      subst hk
      by_cases hbrace : ∀ t ∈ (input.map Lexeme.token).head?, t.isBrace
      · intro f h
        have hplace := h.many_of_declines (bodyEntry_declines hbrace)
        exact ⟨[], [], hplace.symm, .entries_nil⟩
      obtain ⟨x, xs, rfl, hx⟩ : ∃ x xs, input = x :: xs ∧ x.token.isBrace = false := by
        cases input with
        | nil => exact absurd nofun hbrace
        | cons x xs =>
            refine ⟨x, xs, rfl, Bool.eq_false_iff.2 fun hx => hbrace ?_⟩
            rintro _ ⟨⟩
            exact hx
      have shorter {rest : List Lexeme} (h : rest.length ≤ xs.length) :
          MendsAt (entries scope) Closes rest :=
        ih rest.length (Nat.lt_succ_of_le h) rest rfl
      by_cases hname : ∃ text, x.token = .name text
      case neg =>
        exact .entries_of_not_name hx (fun text heq => hname ⟨text, heq⟩) (shorter (Nat.le_refl _))
      obtain ⟨keyword, hkeyword⟩ := hname
      by_cases hdeclares : declares keyword ∧ ∃ text, ¬Avoids (.name text) xs
      · obtain ⟨hdeclares, text, hnext⟩ := hdeclares
        obtain ⟨y, ys, rfl, hy⟩ := exists_cons_of_not_avoids hnext
        obtain ⟨words, mid, rfl, hheads⟩ := exists_heads ys
        refine .entries_of_declares hkeyword hdeclares hy hheads fun rest h => shorter ?_
        simp only [List.length_cons, List.length_append]
        omega
      cases hsetting : attributeSetting (x :: xs) with
      | ok setting rest doubt =>
          refine .entries_of_setting hsetting (shorter ?_)
          exact Nat.le_of_lt_succ (Advances.attributeSetting.length_lt hsetting)
      | fail failure =>
          cases hreserved : isDeclarationKeyword x.token with
          | true =>
              refine .entries_of_missing hkeyword hreserved ?_ hsetting
              by_cases hopens : declares keyword
              · exact .inr fun text => Classical.byContradiction fun hnext =>
                  hdeclares ⟨hopens, text, hnext⟩
              · exact .inl (Bool.eq_false_iff.2 hopens)
          | false =>
              by_cases hequals : Avoids .equals xs
              · obtain ⟨words, mid, rfl, hheads⟩ := exists_heads xs
                refine .entries_of_heads hkeyword (.cons ?_ ?_ hheads) fun rest h => shorter ?_
                · simp only [isHeadingWord, hx, hreserved, Bool.false_or, Bool.or_false]
                  simp [hkeyword]
                · exact Bool.eq_false_iff.2 fun hahead => (settingAhead_cons.1 hahead).2 hequals
                · simp only [List.length_append]
                  omega
              · obtain ⟨y, ys, rfl, hy⟩ := exists_cons_of_not_avoids hequals
                exact .entries_of_key hkeyword hreserved hy hsetting (shorter (Nat.le_succ _))

theorem Mends.braced_body {F : List Lexeme → Prop} : Mends (Parser.braced (Grammar.body scope))
    [Token.openBrace.nowhere, Token.closeBrace.nowhere] F :=
  braced ⟨.body, .body_nil, fun input => .body (mendsAt_entries input)⟩ .body

end Landscape.Grammar
