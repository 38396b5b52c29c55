import Landscape.Proofs.Grammar.Closing

/-!
# Mending a context map

Three things may stand in a map, and they may start alike. What the first ones
are given up for lies within the second or third lexeme, which is less than what
is read instead (`FailsWithin`, `ReadsAtLeast`), so they are given up again when
something further on is changed.

The attributes of a relationship take whatever comes up to the next brace. There
is nothing that could be missing between them, so all that mends them is the
closing brace (`Mends.attributeEntries`).
-/

namespace Landscape.Grammar

open Landscape.Grammar.Parser

variable {α β : Type}

/-! ## How soon a parser fails -/

/-- Where a parser fails it has got past at most `n` lexemes. -/
def FailsWithin (n : Nat) (p : Parser α) : Prop :=
  ∀ input failure, p input = .fail failure → input.length ≤ failure.rest.length + n

/-- Where a parser succeeds it has read at least `n` lexemes. -/
def ReadsAtLeast (n : Nat) (p : Parser α) : Prop :=
  Consumes p fun read _ => n ≤ read.length

/-- A parser fails within less than another one reads. -/
theorem FailsWithin.lt {p q : Parser α} {n : Nat} (hp : FailsWithin n p)
    (hq : ReadsAtLeast (n + 1) q) (input : List Lexeme) (failure : Failure) (value : α)
    (rest : List Lexeme) (doubt : Option Failure) (hfail : p input = .fail failure)
    (hvalue : q input = .ok value rest doubt) : rest.length < failure.rest.length := by
  have hle := hp _ _ hfail
  obtain ⟨read, rfl, hread⟩ := hq _ _ _ _ hvalue
  rw [List.length_append] at hle
  omega

namespace FailsWithin

variable {n : Nat} {p : Parser α}

theorem token {accept : Token → Option α} {expected : List Expectation} :
    FailsWithin 0 (Parser.token accept expected) := by
  intro input failure h
  have hstops : (Parser.token accept expected input).StopsAt failure := by
    rw [h]
    exact .fail
  rw [hstops.rest_eq_of_token]
  omega

/-- Behind one token there are the rest of the sequence and its failure. -/
theorem token_bind {accept : Token → Option α} {expected : List Expectation}
    {next : α → Parser β} (hnext : ∀ value, FailsWithin n (next value)) :
    FailsWithin (n + 1) (Parser.token accept expected >>= next) := by
  intro input failure h
  rcases of_bind_eq_fail h with hfail | ⟨value, mid, early, late, hvalue, hlate, hplace⟩
  · have hle := token _ _ hfail
    omega
  · obtain ⟨x, rfl, -, rfl⟩ := exists_of_token_eq_ok hvalue
    obtain rfl : late = failure := hplace
    have hle := hnext value _ _ hlate
    rw [List.length_cons]
    omega

theorem exactly_bind {t : Token} {next : Unit → Parser β} (hnext : FailsWithin n (next ())) :
    FailsWithin (n + 1) (Parser.exactly t >>= next) := by
  intro input failure h
  rcases of_bind_eq_fail h with hfail | ⟨value, mid, early, late, hvalue, hlate, hplace⟩
  · have hstops : (Parser.exactly t input).StopsAt failure := by
      rw [hfail]
      exact .fail
    rw [hstops.rest_eq_of_exactly]
    omega
  · obtain ⟨x, rfl, -, rfl⟩ := exists_of_exactly_eq_ok hvalue
    obtain rfl : late = failure := hplace
    have hle := hnext _ _ hlate
    rw [List.length_cons]
    omega

theorem bind_succeeds {next : α → Parser β} (hp : FailsWithin n p)
    (hnext : ∀ value, Succeeds (next value)) : FailsWithin n (p >>= next) := by
  intro input failure h
  rcases of_bind_eq_fail h with hfail | ⟨value, mid, early, late, -, hlate, -⟩
  · exact hp _ _ hfail
  · obtain ⟨result, rest, doubt, hresult⟩ := hnext value mid
    rw [hresult] at hlate
    cases hlate

theorem map {f : α → β} (hp : FailsWithin n p) : FailsWithin n (f <$> p) :=
  hp.bind_succeeds fun _ => .pure

theorem located {p : Parser (Span → α)} (hp : FailsWithin n p) :
    FailsWithin n (Parser.located p) := by
  intro input failure h
  rw [Parser.located] at h
  cases hvalue : p input with
  | ok value rest doubt => simp [hvalue] at h
  | fail failure' =>
      simp only [hvalue] at h
      cases h
      exact hp _ _ hvalue

theorem references : FailsWithin 0 references :=
  bind_succeeds (located (map token)) fun _ => .many_pure

theorem attributeSetting : FailsWithin 2 attributeSetting :=
  located (token_bind fun _ => exactly_bind (map (token.bind_succeeds fun _ => .many_pure)))

end FailsWithin

namespace ReadsAtLeast

variable {m n : Nat} {p : Parser α}

theorem of_advances (hp : Advances p) : ReadsAtLeast 1 p :=
  hp.imp fun _ _ hread => List.length_pos_iff.2 hread

theorem bind {next : α → Parser β} (hp : ReadsAtLeast m p)
    (hnext : ∀ value, ReadsAtLeast n (next value)) : ReadsAtLeast (m + n) (p >>= next) :=
  Consumes.bind hp fun read value hread => (hnext value).imp fun read' _ hread' => by
    rw [List.length_append]
    exact Nat.add_le_add hread hread'

theorem located {p : Parser (Span → α)} (hp : ReadsAtLeast n p) :
    ReadsAtLeast n (Parser.located p) :=
  Consumes.located (hp.imp fun _ _ hread _ => hread)

theorem of_remains (hp : Remains p) : ReadsAtLeast 0 p := fun input value rest doubt h => by
  obtain ⟨read, hread⟩ := hp.suffix h
  exact ⟨read, hread.symm, Nat.zero_le _⟩

theorem attributeSetting : ReadsAtLeast 2 attributeSetting :=
  located <| bind (of_advances .token) fun _ => bind (of_advances .exactly) fun _ =>
    of_remains (.bind (.separated .token) fun _ => .pure)

theorem endpoint : ReadsAtLeast 1 endpoint :=
  of_advances (.located (.bind_right (.optional .roles) fun _ =>
    .bind .token fun _ => .bind_pure (.optional .roles)))

theorem anyArrow : ReadsAtLeast 1 anyArrow := by
  have mark (arrow : Arrow) : Advances (arrowMark arrow) := .bind .exactly fun _ => .pure
  refine of_advances (Consumes.firstOf ?_)
  simp only [List.forall_mem_cons]
  exact ⟨mark _, mark _, mark _, List.forall_mem_nil _⟩

theorem connection : ReadsAtLeast 1 connection := by
  refine Consumes.firstOf ?_
  simp only [List.forall_mem_cons]
  exact ⟨bind (of_advances .token) fun _ =>
      of_remains (.bind (.optional .anyArrow) fun _ => .pure),
    bind anyArrow fun _ => of_remains .pure, List.forall_mem_nil _⟩

theorem relation : ReadsAtLeast 3 relation :=
  located <| bind endpoint fun _ => bind connection fun _ => bind endpoint fun _ =>
    of_remains (.bind (.optional (.bind .exactly fun _ => .token)) fun _ =>
      .bind (.optional .relationAttributes) fun _ => .pure)

end ReadsAtLeast

/-! ## Alternatives told apart by a token -/

namespace Parser

/-- Of two parsers one gets past a token only if the other one does not. -/
theorem Excludes.of_head {p q : Parser α} (P : Token → Prop)
    (hp : ∀ xs : List Lexeme, (∀ t ∈ (xs.map Lexeme.token).head?, ¬P t) → p.Declines xs)
    (hq : ∀ xs : List Lexeme, (∃ t ∈ (xs.map Lexeme.token).head?, P t) → q.Declines xs) :
    p.Excludes q := by
  intro xs
  by_cases h : ∃ t ∈ (xs.map Lexeme.token).head?, P t
  · exact .inr (hq xs h)
  · exact .inl (hp xs fun t ht hP => h ⟨t, ht, hP⟩)

/-- A parser that starts with the token `t` excludes one that does not. -/
theorem Excludes.exactly_bind {q : Parser α} {t : Token} {next : Unit → Parser α}
    (hq : ∀ xs : List Lexeme, (xs.map Lexeme.token).head? = some t → q.Declines xs) :
    Excludes (Parser.exactly t >>= next) q := by
  refine .of_head (· = t) (fun xs h => .bind (.exactly fun ht => h t ht rfl)) ?_
  rintro xs ⟨_, ht, rfl⟩
  exact hq xs ht

theorem Declines.exactly_of_head {t u : Token} {xs : List Lexeme}
    (h : (xs.map Lexeme.token).head? = some u) (ht : u ≠ t) :
    (Parser.exactly t).Declines xs :=
  .exactly fun heq => ht (Option.some.inj (h.symm.trans heq))

end Parser

/-! ## Arrows and the sides of a relationship -/

theorem arrowMark_excludes (arrow : Arrow) (arrows : List Arrow) (h : arrow ∉ arrows) :
    (arrowMark arrow).Excludes (firstOf (arrows.map arrowMark)) := by
  refine .exactly_bind fun xs hxs => .firstOf (List.forall_mem_map.2 fun other hother => ?_)
  refine .bind (.exactly_of_head hxs fun heq => h ?_)
  rwa [Token.arrow.inj heq]

theorem relationKeyword_excludes {next : String → Parser Connection} {f : Arrow → Connection} :
    Excludes (relationKeyword >>= next) (firstOf [anyArrow >>= fun arrow => pure (f arrow)]) := by
  refine .of_head (fun t => ∃ keyword, t = .relation keyword) (fun xs h => ?_) ?_
  · refine .bind (.token fun t ht => ?_)
    cases t with
    | relation keyword => exact absurd ⟨keyword, rfl⟩ (h _ ht)
    | _ => rfl
  · rintro xs ⟨_, ht, keyword, rfl⟩
    have mark (arrow : Arrow) : (arrowMark arrow).Declines xs :=
      .bind (.exactly_of_head ht nofun)
    refine .firstOf ?_
    simp only [List.forall_mem_cons]
    refine ⟨.bind (.firstOf ?_), List.forall_mem_nil _⟩
    simp only [List.forall_mem_cons]
    exact ⟨mark _, mark _, mark _, List.forall_mem_nil _⟩

namespace Decides

variable {C : List Lexeme → Prop}

theorem anyArrow : Decides anyArrow C :=
  orElse (bind_pure exactly) (orElse (bind_pure exactly) (firstOf_singleton (bind_pure exactly))
    (arrowMark_excludes .left [.both] (by decide)))
    (arrowMark_excludes .right [.left, .both] (by decide))

theorem optional_anyArrow : Decides (Parser.optional Grammar.anyArrow) C := by
  have mark (arrow : Arrow) : DecidesFailing (arrowMark arrow) := .bind_pure .exactly
  refine anyArrow.optional (.firstOf ?_)
  simp only [List.forall_mem_cons]
  exact ⟨mark _, mark _, mark _, List.forall_mem_nil _⟩

theorem connection : Decides connection C :=
  orElse (bind token fun _ => bind_pure optional_anyArrow)
    (firstOf_singleton (bind_pure anyArrow)) relationKeyword_excludes

theorem roles : Decides roles C :=
  between (separated token .token .token)

theorem label : Decides (Parser.optional (do Parser.exactly .colon; name)) C :=
  optional (bind exactly fun _ => token)
    (.bind .exactly .exactly (fun _ => .token) fun _ => .token)

theorem endpoint : Decides endpoint C :=
  located <| bind (roles.optional .roles) fun _ => bind token fun _ =>
    bind_pure (roles.optional .roles)

end Decides

namespace Mends

variable {F : List Lexeme → Prop}

theorem anyArrow : Mends anyArrow [(Token.arrow .right).nowhere] F :=
  orElse exactly.bind_pure
    (orElse exactly.bind_pure (firstOf_singleton exactly.bind_pure)
      (arrowMark_excludes .left [.both] (by decide)))
    (arrowMark_excludes .right [.left, .both] (by decide))

theorem relationKeyword : Mends relationKeyword [(Token.relation "x").nowhere] F :=
  token rfl

/-- A keyword alone makes a connection, in front of anything but an arrow. -/
theorem connection : Mends connection [(Token.relation "x").nowhere]
    fun after => ∀ arrow, Avoids (.arrow arrow) after := by
  have noArrow (after : List Lexeme) (h : ∀ arrow, Avoids (.arrow arrow) after) :
      ∃ failure, Grammar.anyArrow after = .fail failure :=
    Refuses.anyArrow h after rfl
  have keyword : Mends (do
      let keyword ← Grammar.relationKeyword
      let arrow ← Parser.optional Grammar.anyArrow
      return (⟨some keyword, arrow⟩ : Connection)) [(Token.relation "x").nowhere]
      fun after => ∀ arrow, Avoids (.arrow arrow) after :=
    bind (relationKeyword (F := fun _ => True)) .token
      (fun _ => (anyArrow.optional_nil noArrow).bind_pure) fun _ _ => trivial
  exact keyword.orElse (firstOf_singleton anyArrow.bind_pure) relationKeyword_excludes

theorem optional_roles : Mends (Parser.optional Grammar.roles) [] (Avoids .openBracket) :=
  roles.optional_nil fun after h => Refuses.roles h after rfl

/-- A name alone makes an endpoint, in front of anything but roles. -/
theorem endpoint : Mends endpoint [(Token.name "x").nowhere] (Avoids .openBracket) :=
  located <| bind optional_roles (.optional .roles .roles)
    (fun _ => bind (name (F := fun _ => True)) .token (fun _ => optional_roles.bind_pure)
      fun _ _ => trivial)
    fun _ _ => nofun

theorem label : Mends (Parser.optional (do Parser.exactly .colon; Grammar.name)) []
    (Avoids .colon) :=
  optional_nil (bind (exactly (F := fun _ => True)) .exactly (fun _ => name) fun _ _ => trivial)
    fun _ h => (Parser.Declines.exactly h).bind.exists_fail

end Mends

/-! ## Attributes of a relationship -/

/-- What stands between the braces of a relationship: settings, and any other
tokens. -/
def attributeEntry : Parser (Option RelationAttribute) :=
  orElse ((fun setting => some (RelationAttribute.ofAttribute setting)) <$> attributeSetting)
    ((fun _ => none) <$> anyToken fun t => !t.isBrace)

theorem relationAttributes_eq : relationAttributes =
    (fun entries => entries.filterMap id) <$> braced (many attributeEntry) :=
  rfl

theorem ReadsNoBrace.attributeEntry : ReadsNoBrace attributeEntry :=
  Consumes.orElse (Consumes.map ReadsNoBrace.attributeSetting)
    (Consumes.map (anyToken fun t ht => by simpa using ht))

theorem Advances.attributeEntry : Advances attributeEntry :=
  Consumes.orElse (map .attributeSetting) (map token)

theorem Remains.attributeEntry : Remains attributeEntry :=
  .orElse (.map .attributeSetting) (.map .token)

theorem attributeEntry_declines {input : List Lexeme}
    (h : ∀ t ∈ (input.map Lexeme.token).head?, t.isBrace) : attributeEntry.Declines input := by
  refine .orElse (.map (.located (.bind (.token fun t ht => ?_)))) (.map (.token fun t ht => ?_))
  · cases t with
    | name text => exact absurd (h _ ht) Bool.false_ne_true
    | _ => rfl
  · simp [h t ht]

/-- Up to the next brace there is always another entry. -/
theorem exists_attributeEntry_eq_ok {x : Lexeme} (h : x.token.isBrace = false)
    (xs : List Lexeme) : ∃ value rest doubt, attributeEntry (x :: xs) = .ok value rest doubt := by
  have stray : Takes ((fun _ => (none : Option RelationAttribute)) <$>
      anyToken fun t => !t.isBrace) [x] fun _ => True :=
    .bind_pure (.token (if_pos (by simp [h])))
  obtain ⟨value, doubt, hstray⟩ := stray xs trivial
  rw [attributeEntry, Parser.orElse]
  cases ((fun setting => some (RelationAttribute.ofAttribute setting)) <$> attributeSetting)
      (x :: xs) with
  | ok value rest doubt => exact ⟨value, rest, doubt, rfl⟩
  | fail failure =>
      rw [List.singleton_append] at hstray
      exact ⟨value, xs, doubt, by simp only [hstray]⟩

/-- The entries take all that is in front of a brace. -/
theorem Takes.attributeEntries {read : List Lexeme}
    (h : ∀ x ∈ read, x.token.isBrace = false) : Takes (many attributeEntry) read Closes := by
  intro after hafter
  have hbrace : ∀ t ∈ (after.map Lexeme.token).head?, t.isBrace := fun t => hafter.isBrace
  induction hk : read.length using Nat.strongRecOn generalizing read with
  | ind k ih =>
      subst hk
      cases read with
      | nil =>
          obtain ⟨failure, hfail⟩ := (attributeEntry_declines hbrace).exists_fail
          exact ⟨[], some failure, many_of_fail hfail⟩
      | cons x read =>
          obtain ⟨value, rest, early, hvalue⟩ :=
            exists_attributeEntry_eq_ok (h x List.mem_cons_self) (read ++ after)
          obtain ⟨used, hinput, hused⟩ := ReadsNoBrace.attributeEntry _ _ _ _ hvalue
          -- An entry reads no brace, so it ends in front of what comes after.
          obtain ⟨others, hread, rfl⟩ : ∃ others, x :: read = used ++ others ∧
              rest = others ++ after := by
            rcases List.append_eq_append_iff.1 (show x :: read ++ after = used ++ rest from hinput)
              with ⟨later, rfl, rfl⟩ | ⟨others, hread, hrest⟩
            · cases later with
              | nil => exact ⟨[], by simp⟩
              | cons y later =>
                  have hy := hbrace y.token rfl
                  rw [hused y (by simp)] at hy
                  cases hy
            · exact ⟨others, hread, hrest⟩
          have hlt := Advances.attributeEntry.length_lt hvalue
          obtain ⟨values, late, hvalues⟩ := ih others.length
            (by simp only [List.length_append, List.length_cons] at hlt ⊢; omega)
            (fun y hy => h y (by rw [hread]; exact List.mem_append_right _ hy)) rfl
          exact ⟨_, _, Advances.attributeEntry.many_of_ok hvalue hvalues⟩

/-- No entry stops behind a brace. -/
theorem exists_of_attributeEntry_stopsAt {input : List Lexeme} {f : Failure}
    (h : (attributeEntry input).StopsAt f) :
    ∃ front, input = front ++ f.rest ∧ ∀ x ∈ front, x.token.isBrace = false := by
  rcases h.orElse with ⟨g, hstops, hplace⟩ | ⟨failure, g, -, hstops, hplace, -⟩
  · obtain ⟨front, more, rfl, htakes⟩ :=
      Mends.attributeSetting.map.mended input g hstops
    obtain ⟨value, doubt, hvalue⟩ := htakes [] .nil
    have hread : ReadsNoBrace ((fun setting => some (RelationAttribute.ofAttribute setting)) <$>
        attributeSetting) := Consumes.map ReadsNoBrace.attributeSetting
    obtain ⟨read, hinput, hnone⟩ := hread _ _ _ _ hvalue
    rw [List.append_nil, List.append_nil] at hinput
    refine ⟨front, by rw [hplace], fun x hx => hnone x ?_⟩
    rw [← hinput]
    exact List.mem_append_left _ hx
  · refine ⟨[], ?_, List.forall_mem_nil _⟩
    rw [← hplace, hstops.bind_pure.rest_eq_of_token]
    rfl

theorem exists_of_attributeEntries_stopsAt {input : List Lexeme} {f : Failure}
    (h : (many attributeEntry input).StopsAt f) :
    ∃ front, input = front ++ f.rest ∧ ∀ x ∈ front, x.token.isBrace = false := by
  induction hk : input.length using Nat.strongRecOn generalizing input f with
  | ind k ih =>
      subst hk
      cases hvalue : attributeEntry input with
      | fail failure =>
          rw [many_of_fail hvalue] at h
          cases h
          exact exists_of_attributeEntry_stopsAt (by rw [hvalue]; exact .fail)
      | ok value mid early =>
          rcases h.many_of_ok .attributeEntry .attributeEntry hvalue with
            ⟨g, hstops, hplace⟩ | ⟨g, hstops, hplace, -⟩
          · rw [← hplace]
            exact exists_of_attributeEntry_stopsAt hstops
          · obtain ⟨front, rfl, hfront⟩ :=
              ih mid.length (Advances.attributeEntry.length_lt hvalue) hstops rfl
            obtain ⟨read, rfl, hread⟩ := ReadsNoBrace.attributeEntry _ _ _ _ hvalue
            refine ⟨read ++ front, by rw [hplace, List.append_assoc], fun x hx => ?_⟩
            exact (List.mem_append.1 hx).elim (hread x) (hfront x)

theorem Mends.attributeEntries : Mends (Parser.many attributeEntry) [] Closes := by
  refine ⟨.many .attributeEntry, .attributeEntries (List.forall_mem_nil _), fun input f h => ?_⟩
  obtain ⟨front, hinput, hfront⟩ := exists_of_attributeEntries_stopsAt h
  refine ⟨front, [], hinput, ?_⟩
  rw [List.append_nil]
  exact .attributeEntries hfront

theorem Mends.optional_relationAttributes :
    Mends (Parser.optional relationAttributes) [] (Avoids .openBrace) := by
  rw [relationAttributes_eq]
  exact optional_nil (map (attributeEntries.braced (.many .attributeEntry .attributeEntry)))
    fun _ h => (Parser.Declines.exactly h).bind.map.exists_fail

/-! ## Entries of a map -/

theorem Confined.attributeEntry {n : Nat} : Confined n attributeEntry attributeEntry :=
  orElse (map attributeSetting) (map (anyToken fun t ht => by simpa using ht))

theorem Decides.relation : Decides relation (Avoids .openBrace) := by
  have attributes : Decides relationAttributes fun _ => True := by
    rw [relationAttributes_eq]
    exact map (braced (fun _ => Confined.many .attributeEntry .attributeEntry .attributeEntry)
      (.many .attributeEntry))
  exact located <| bind endpoint fun _ => bind connection fun _ => bind endpoint fun _ =>
    bind label fun _ => bind_pure (attributes.optional_avoids fun _ h => .map (.bind (.exactly h)))

theorem Mends.relation : Mends relation
    [(Token.name "x").nowhere, (Token.relation "x").nowhere, (Token.name "x").nowhere]
    Closes :=
  located <| bind endpoint .endpoint
    (fun _ => bind connection .connection
      (fun _ => bind endpoint .endpoint
        (fun _ => bind label .label
          (fun _ => (optional_relationAttributes.imp fun _ h => h.avoids nofun).bind_pure)
          fun _ h => h.avoids nofun)
        fun _ h => h.avoids nofun)
      fun _ _ _ => nofun)
    fun _ _ => nofun

/-- The clause that lists the contexts of a map. -/
def containsClause : Parser MapEntry := do
  keyword "contains"
  let references ← references
  return .setting (.contains references)

theorem mapEntry_eq : mapEntry = orElse containsClause
    (orElse ((fun setting => .setting (MapSetting.ofAttribute setting)) <$> attributeSetting)
      (firstOf [MapEntry.relation <$> relation])) :=
  rfl

theorem FailsWithin.containsClause : FailsWithin 1 containsClause :=
  exactly_bind (references.bind_succeeds fun _ => .pure)

theorem DecidesFailing.containsClause : DecidesFailing containsClause :=
  bind exactly .exactly (fun _ => references.bind_pure) fun _ => .bind .references fun _ => .pure

section

variable {β : Type} {f : Attribute → MapEntry} {g : RelationDecl → MapEntry}

theorem ReadsAtLeast.relation_only : ReadsAtLeast 3 (firstOf [g <$> Grammar.relation]) := by
  refine Consumes.firstOf ?_
  rw [List.forall_mem_singleton]
  exact Consumes.map ReadsAtLeast.relation

theorem ReadsAtLeast.setting_or_relation :
    ReadsAtLeast 2 (orElse (f <$> Grammar.attributeSetting) (firstOf [g <$> Grammar.relation])) :=
  Consumes.orElse (Consumes.map ReadsAtLeast.attributeSetting)
    (relation_only.imp fun _ _ hread => Nat.le_of_succ_le hread)

end

theorem Decides.mapEntry : Decides mapEntry (Avoids .openBrace) := by
  rw [mapEntry_eq]
  exact orElse_of_within (bind exactly fun _ => bind_pure references)
    (orElse_of_within (map attributeSetting) (firstOf_singleton (map relation))
      (.map .attributeSetting) (FailsWithin.attributeSetting.map.lt .relation_only))
    .containsClause (FailsWithin.containsClause.lt .setting_or_relation)

theorem Mends.mapEntry : Mends mapEntry
    [(Token.name "contains").nowhere, (Token.name "x").nowhere] Closes := by
  have comma (after : List Lexeme) (h : Closes after) : Avoids .comma after := h.avoids nofun
  have contains : Mends containsClause
      [(Token.name "contains").nowhere, (Token.name "x").nowhere] Closes :=
    bind (exactly (F := fun _ => True)) .exactly (fun _ => (references.imp comma).bind_pure)
      fun _ _ => trivial
  rw [mapEntry_eq]
  exact contains.orElse_of_within
    ((attributeSetting.imp comma).map.orElse_of_within (firstOf_singleton relation.map)
      (.map .attributeSetting) (FailsWithin.attributeSetting.map.lt .relation_only))
    .containsClause (FailsWithin.containsClause.lt .setting_or_relation)

/-- An entry starts with a name or with a bracket. -/
theorem mapEntry_declines {input : List Lexeme}
    (h : ∀ t ∈ (input.map Lexeme.token).head?, t.isBrace) : mapEntry.Declines input := by
  have avoids {t : Token} (ht : t.isBrace = false) : Avoids t input := fun heq =>
    Bool.false_ne_true (ht.symm.trans (h t heq))
  have name : name.Declines input := .token fun t ht => by
    cases t with
    | name text => exact absurd (h _ ht) Bool.false_ne_true
    | _ => rfl
  have endpoint : endpoint.Declines input :=
    .located (.optional_bind (.bind (.exactly (avoids rfl))) name.bind)
  refine .firstOf ?_
  simp only [List.forall_mem_cons]
  exact ⟨.bind (.exactly (avoids rfl)), .map (.located name.bind),
    .map (.located endpoint.bind), List.forall_mem_nil _⟩

/-! ## Maps -/

theorem Mends.mapEntries : Mends (Parser.many Grammar.mapEntry) [] Closes := by
  refine mapEntry.many .mapEntry .mapEntry (fun xs h => mapEntry_declines fun t ht => ?_)
    fun after h => (mapEntry_declines fun t => Closes.isBrace h).exists_fail
  have hopening := Decidable.not_not.1 h
  rw [Option.mem_def, hopening] at ht
  obtain rfl := Option.some.inj ht
  rfl

theorem Decides.contextMap {C : List Lexeme → Prop} : Decides contextMap C :=
  located <| bind exactly fun _ => bind (token.optional .token) fun _ =>
    bind_pure (braced (fun _ => Confined.many .mapEntry .mapEntry .mapEntry) (.many .mapEntry))

theorem Mends.contextMap {F : List Lexeme → Prop} : Mends contextMap
    [(Token.name "ContextMap").nowhere, (Token.name "x").nowhere, Token.openBrace.nowhere,
      Token.closeBrace.nowhere] F :=
  located <| bind (exactly (F := fun _ => True)) .exactly
    (fun _ => bind (name.optional (F := fun _ => True)) (.optional .token .token)
      (fun _ => (mapEntries.braced (.many .mapEntry .mapEntry)).bind_pure) fun _ _ => trivial)
    fun _ _ => trivial

end Landscape.Grammar
