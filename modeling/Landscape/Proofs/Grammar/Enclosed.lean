import Landscape.Proofs.Grammar.Advances

/-!
# What is read between braces ends there

A parser that is at work between braces cannot look behind the closing one. It
reads whole pairs of braces and nothing else, so the brace that closes the pair
it stands in stays unread in front of it, and no rule looks further ahead than
that (`Confined`). What comes after the brace can be anything, or nothing: the
reply is the same, apart from more being left to read.

Two things in the grammar do depend on how long the input is, the limit of a
repetition and the depth to which a body is unfolded. Both are large enough in
any case, which for bodies is the one induction here: the body of a declaration
is shorter than the body that the declaration stands in. That is why the
statement is about two parsers, which are the same except for that depth.
-/

namespace Landscape

/-- A brace is closed that was opened before these tokens. -/
def Enclosed (ts : List Token) : Prop :=
  ∃ before, before <+: ts ∧ before.count .openBrace < before.count .closeBrace

namespace Enclosed

variable {ts read : List Token}

theorem ne_nil (h : Enclosed ts) : ts ≠ [] := by
  rintro rfl
  obtain ⟨before, hbefore, hcount⟩ := h
  rw [List.prefix_nil.1 hbefore] at hcount
  exact absurd hcount (Nat.lt_irrefl 0)

theorem eq_closeBrace {t : Token} (h : Enclosed [t]) : t = .closeBrace := by
  obtain ⟨before, hbefore, hcount⟩ := h
  have hmem : Token.closeBrace ∈ before := List.count_pos_iff.1 (by omega)
  exact (List.mem_singleton.1 (hbefore.subset hmem)).symm

/-- After an opening brace the same brace is still to be closed. -/
theorem of_openBrace (h : Enclosed (.openBrace :: ts)) : Enclosed ts := by
  obtain ⟨before, hbefore, hcount⟩ := h
  rcases List.prefix_cons_iff.1 hbefore with rfl | ⟨later, rfl, hlater⟩
  · exact absurd hcount (Nat.lt_irrefl 0)
  · refine ⟨later, hlater, ?_⟩
    have hcount : later.count .openBrace + 1 < later.count .closeBrace := by simpa using hcount
    omega

theorem of_balanced (hread : Balanced read) (h : Enclosed (read ++ ts)) : Enclosed ts := by
  obtain ⟨before, hbefore, hcount⟩ := h
  rcases List.prefix_or_prefix_of_prefix hbefore (List.prefix_append read ts) with hle | hle
  · exact absurd hcount (Nat.not_lt.2 (hread.count_le before hle))
  · obtain ⟨later, rfl⟩ := hle
    refine ⟨later, (List.prefix_append_right_inj read).1 hbefore, ?_⟩
    rw [List.count_append, List.count_append, hread.count_eq] at hcount
    exact Nat.lt_of_add_lt_add_left hcount

theorem closeBrace (hread : Balanced read) : Enclosed (read ++ .closeBrace :: ts) := by
  refine ⟨read ++ [.closeBrace], ⟨ts, by simp⟩, ?_⟩
  simp [hread.count_eq]

end Enclosed

namespace Grammar

variable {α β : Type}

/-! ## More to read -/

/-- A failure in front of more lexemes. -/
def Failure.followedBy (ys : List Lexeme) (f : Failure) : Failure :=
  { f with rest := f.rest ++ ys }

theorem Failure.furthest_followedBy (ys : List Lexeme) (f g : Failure) :
    (f.furthest g).followedBy ys = (f.followedBy ys).furthest (g.followedBy ys) := by
  simp only [furthest, followedBy, List.length_append, Nat.add_lt_add_iff_right]
  split
  · rfl
  · split <;> rfl

theorem Failure.merge_followedBy (ys : List Lexeme) (a b : Option Failure) :
    (merge a b).map (followedBy ys) = merge (a.map (followedBy ys)) (b.map (followedBy ys)) := by
  cases a <;> cases b <;> simp [merge, furthest_followedBy]

namespace Reply

/-- A reply in front of more lexemes, none of which are read. -/
def followedBy (ys : List Lexeme) : Reply α → Reply α
  | ok value rest doubt => ok value (rest ++ ys) (doubt.map (Failure.followedBy ys))
  | fail failure => fail (failure.followedBy ys)

theorem after_followedBy (ys : List Lexeme) (doubt : Option Failure) (r : Reply α) :
    (r.after doubt).followedBy ys =
      (r.followedBy ys).after (doubt.map (Failure.followedBy ys)) := by
  cases r with
  | ok value rest later => simp only [after, followedBy, Failure.merge_followedBy]
  | fail failure => cases doubt <;> simp [after, followedBy, Failure.furthest_followedBy]

end Reply

/-- Between braces, and with at most `n` lexemes in front of it, the second
parser says on a longer input what the first one says on a shorter one. -/
structure Confined (n : Nat) (p q : Parser α) : Prop where
  balanced : ReadsBalanced p
  followed : ∀ xs ys : List Lexeme, xs.length ≤ n → Enclosed (xs.map Lexeme.token) →
    q (xs ++ ys) = (p xs).followedBy ys

namespace ReadsBalanced

variable {p : Parser α} {xs rest : List Lexeme} {value : α} {doubt : Option Failure}

theorem enclosed (hp : ReadsBalanced p) (h : p xs = .ok value rest doubt)
    (hxs : Enclosed (xs.map Lexeme.token)) : Enclosed (rest.map Lexeme.token) := by
  obtain ⟨read, rfl, hread⟩ := hp _ _ _ _ h
  rw [List.map_append] at hxs
  exact hxs.of_balanced hread

theorem length_le (hp : ReadsBalanced p) (h : p xs = .ok value rest doubt) :
    rest.length ≤ xs.length := by
  obtain ⟨read, rfl, -⟩ := hp _ _ _ _ h
  rw [List.length_append]
  exact Nat.le_add_left _ _

end ReadsBalanced

/-- A span does not depend on what is behind it. -/
theorem spanBetween_append {xs rest read : List Lexeme} (h : xs = read ++ rest)
    (ys : List Lexeme) :
    Parser.spanBetween (xs ++ ys) (rest ++ ys) = Parser.spanBetween xs rest := by
  rw [h, List.append_assoc, spanBetween_eq_spanOf, spanBetween_eq_spanOf]

namespace Confined

variable {n : Nat} {p q p' q' : Parser α}

/-! ## Sequences -/

theorem pure {value : α} : Confined n (Pure.pure value) (Pure.pure value) :=
  ⟨.pure, fun _ _ _ _ => rfl⟩

theorem bind {next next' : α → Parser β} (hp : Confined n p q)
    (hnext : ∀ value, Confined n (next value) (next' value)) :
    Confined n (p >>= next) (q >>= next') := by
  refine ⟨hp.balanced.bind fun value => (hnext value).balanced, fun xs ys hlength hxs => ?_⟩
  change Parser.andThen q next' (xs ++ ys) = (Parser.andThen p next xs).followedBy ys
  rw [Parser.andThen, Parser.andThen, hp.followed xs ys hlength hxs]
  cases hvalue : p xs with
  | fail failure => rfl
  | ok value rest doubt =>
      have hrest := hp.balanced.enclosed hvalue hxs
      have hle := Nat.le_trans (hp.balanced.length_le hvalue) hlength
      rw [Reply.after_followedBy, ← (hnext value).followed rest ys hle hrest]
      rfl

theorem bind_pure {f : α → β} (hp : Confined n p q) :
    Confined n (p >>= fun value => Pure.pure (f value)) (q >>= fun value => Pure.pure (f value)) :=
  hp.bind fun _ => pure

theorem map {f : α → β} (hp : Confined n p q) : Confined n (f <$> p) (f <$> q) :=
  hp.bind_pure

theorem located {p q : Parser (Span → α)} (hp : Confined n p q) :
    Confined n (Parser.located p) (Parser.located q) := by
  refine ⟨hp.balanced.located, fun xs ys hlength hxs => ?_⟩
  rw [Parser.located, Parser.located, hp.followed xs ys hlength hxs]
  cases hvalue : p xs with
  | fail failure => rfl
  | ok value rest doubt =>
      obtain ⟨read, hread, -⟩ := hp.balanced _ _ _ _ hvalue
      simp only [Reply.followedBy, spanBetween_append hread]

/-! ## Single tokens -/

theorem token {accept : Token → Option α} {expected : List Expectation}
    (h : ∀ t value, accept t = some value → t.isBrace = false) :
    Confined n (Parser.token accept expected) (Parser.token accept expected) := by
  refine ⟨(ReadsNoBrace.token h).balanced, fun xs ys _ hxs => ?_⟩
  cases xs with
  | nil => exact absurd rfl hxs.ne_nil
  | cons x xs =>
      rw [List.cons_append, Parser.token, Parser.token]
      cases accept x.token <;> rfl

theorem exactly_followedBy (t : Token) {xs : List Lexeme} (hxs : xs ≠ []) (ys : List Lexeme) :
    Parser.exactly t (xs ++ ys) = (Parser.exactly t xs).followedBy ys := by
  cases xs with
  | nil => exact absurd rfl hxs
  | cons x xs =>
      rw [List.cons_append, Parser.exactly, Parser.exactly]
      split <;> rfl

theorem exactly {t : Token} (h : t.isBrace = false) :
    Confined n (Parser.exactly t) (Parser.exactly t) :=
  ⟨.exactly h, fun _ ys _ hxs =>
    exactly_followedBy t (fun hnil => hxs.ne_nil (congrArg (List.map Lexeme.token) hnil)) ys⟩

/-! ## Choice -/

theorem orElse (hp : Confined n p q) (hp' : Confined n p' q') :
    Confined n (Parser.orElse p p') (Parser.orElse q q') := by
  refine ⟨Consumes.orElse hp.balanced hp'.balanced, fun xs ys hlength hxs => ?_⟩
  rw [Parser.orElse, Parser.orElse, hp.followed xs ys hlength hxs]
  cases p xs with
  | ok value rest doubt => rfl
  | fail failure =>
      simp only [Reply.followedBy, hp'.followed xs ys hlength hxs]
      cases p' xs with
      | ok value rest doubt => rfl
      | fail failure' =>
          exact congrArg Reply.fail (Failure.furthest_followedBy ys failure failure').symm

theorem firstOf_nil : Confined n (Parser.firstOf ([] : List (Parser α))) (Parser.firstOf []) :=
  ⟨Consumes.firstOf nofun, fun _ _ _ _ => rfl⟩

theorem firstOf_cons {ps qs : List (Parser α)} (hp : Confined n p q)
    (hps : Confined n (Parser.firstOf ps) (Parser.firstOf qs)) :
    Confined n (Parser.firstOf (p :: ps)) (Parser.firstOf (q :: qs)) :=
  orElse hp hps

theorem optional (hp : Confined n p q) : Confined n (Parser.optional p) (Parser.optional q) := by
  refine ⟨hp.balanced.optional, fun xs ys hlength hxs => ?_⟩
  rw [Parser.optional, Parser.optional, hp.followed xs ys hlength hxs]
  cases p xs <;> rfl

/-! ## Repetition and recursion -/

/-- Whatever limits there are, the brace stops a repetition before they do. -/
theorem many (hp : Confined n p q) (hadvances : Advances p) (hadvances' : Advances q) :
    Confined n (Parser.many p) (Parser.many q) := by
  refine ⟨hp.balanced.many, fun xs ys hlength hxs => ?_⟩
  induction hk : xs.length using Nat.strongRecOn generalizing xs with
  | ind k ih =>
      subst hk
      have hsame := hp.followed xs ys hlength hxs
      cases hvalue : p xs with
      | fail failure =>
          rw [hvalue] at hsame
          rw [Parser.many_of_fail hvalue, Parser.many_of_fail hsame]
          rfl
      | ok value rest doubt =>
          rw [hvalue] at hsame
          have hrest := hp.balanced.enclosed hvalue hxs
          have hlt := hadvances.length_lt hvalue
          have hlater := ih rest.length hlt rest (by omega) hrest rfl
          obtain ⟨values, final, later, hmany⟩ := Parser.exists_many_eq p rest
          rw [hmany] at hlater
          rw [hadvances.many_of_ok hvalue hmany, hadvances'.many_of_ok hsame hlater,
            Reply.followedBy, Failure.merge_followedBy]

theorem separated (hp : Confined n p q) (hq : ReadsBalanced q) :
    Confined n (Parser.separated p) (Parser.separated q) :=
  hp.bind fun _ => bind_pure (many (bind (exactly rfl) fun _ => hp)
    (.bind .exactly fun _ => hp.balanced) (.bind .exactly fun _ => hq))

theorem between {opening closing : Token} (hopening : opening.isBrace = false)
    (hclosing : closing.isBrace = false) (hp : Confined n p q) :
    Confined n (Parser.between opening closing p) (Parser.between opening closing q) :=
  bind (exactly hopening) fun _ => hp.bind fun _ => bind_pure (exactly hclosing)

theorem braced_cons (p : Parser α) (x : Lexeme) (xs : List Lexeme) :
    Parser.braced p (x :: xs) =
      if x.token = .openBrace then
        match p xs with
        | .ok value rest doubt =>
          match Parser.exactly .closeBrace rest with
          | .ok _ rest' _ => .ok value rest' doubt
          | .fail failure => .fail ((doubt.map failure.furthest).getD failure)
        | .fail failure => .fail failure
      else .fail ⟨x :: xs, [.token .openBrace]⟩ := by
  change Parser.andThen (Parser.exactly .openBrace) _ (x :: xs) = _
  rw [Parser.andThen, Parser.exactly]
  by_cases hx : x.token = .openBrace
  · rw [if_pos hx, if_pos hx]
    change (Parser.andThen p _ xs).after none = _
    rw [Parser.andThen]
    cases p xs with
    | fail failure => rfl
    | ok value rest doubt =>
        change ((Parser.andThen (Parser.exactly .closeBrace) _ rest).after doubt).after none = _
        rw [Parser.andThen]
        cases rest with
        | nil => cases doubt <;> rfl
        | cons y rest =>
            simp only [Parser.exactly]
            by_cases hy : y.token = .closeBrace
            · simp only [if_pos hy]
              cases doubt <;> rfl
            · simp only [if_neg hy]
              cases doubt <;> rfl
  · rw [if_neg hx, if_neg hx]

/-- What stands between braces of its own is shorter by one of them. -/
theorem braced (hbalanced : ReadsBalanced p) (hp : ∀ k < n, Confined k p q) :
    Confined n (Parser.braced p) (Parser.braced q) := by
  refine ⟨hbalanced.braced, fun xs ys hlength hxs => ?_⟩
  cases xs with
  | nil => exact absurd rfl hxs.ne_nil
  | cons x xs =>
      rw [List.cons_append, braced_cons, braced_cons]
      by_cases hx : x.token = .openBrace
      · rw [if_pos hx, if_pos hx]
        rw [List.map_cons, hx] at hxs
        have hinner := (hp xs.length hlength).followed xs ys (Nat.le_refl _) hxs.of_openBrace
        rw [hinner]
        cases hvalue : p xs with
        | fail failure => rfl
        | ok value rest doubt =>
            have hrest := hbalanced.enclosed hvalue hxs.of_openBrace
            have hne : rest ≠ [] := by
              rintro rfl
              exact hrest.ne_nil rfl
            simp only [Reply.followedBy, exactly_followedBy .closeBrace hne]
            cases Parser.exactly .closeBrace rest with
            | ok closing rest' later => rfl
            | fail failure =>
                cases doubt <;> simp [Failure.furthest_followedBy]
      · rw [if_neg hx, if_neg hx]
        rfl

/-- A parser that uses itself between braces only. Both depths cover the input,
and so do the depths that are left for what the braces enclose. -/
theorem nested {step : Parser α → Parser α}
    (hbalanced : ∀ inner, ReadsBalanced inner → ReadsBalanced (step inner))
    (hstep : ∀ m inner inner', ReadsBalanced inner → ReadsBalanced inner' →
      (∀ k < m, Confined k inner inner') → Confined m (step inner) (step inner')) :
    Confined n (Parser.nested step) (Parser.nested step) := by
  have unfold (m depth depth' : Nat) (hdepth : m < depth) (hdepth' : m < depth') :
      Confined m (Parser.unfold step depth) (Parser.unfold step depth') := by
    induction m using Nat.strongRecOn generalizing depth depth' with
    | ind m ih =>
        obtain ⟨depth, rfl⟩ : ∃ d, depth = d + 1 := ⟨depth - 1, by omega⟩
        obtain ⟨depth', rfl⟩ : ∃ d, depth' = d + 1 := ⟨depth' - 1, by omega⟩
        refine hstep m _ _ (Consumes.unfold hbalanced _) (Consumes.unfold hbalanced _) ?_
        exact fun k hk => ih k hk depth depth' (by omega) (by omega)
  refine ⟨Consumes.nested hbalanced, fun xs ys _ hxs => ?_⟩
  rw [Parser.nested, Parser.nested]
  refine (unfold xs.length _ _ (Nat.lt_succ_self _) ?_).followed xs ys (Nat.le_refl _) hxs
  rw [List.length_append]
  omega

/-! ## Words -/

theorem name : Confined n name name :=
  token fun t _ h => by cases t <;> first | rfl | cases h

theorem value : Confined n value value :=
  token fun t _ h => by cases t <;> first | rfl | cases h

theorem reference : Confined n reference reference :=
  located (bind_pure name)

theorem references : Confined n references references :=
  separated reference .reference

theorem attributeSetting : Confined n attributeSetting attributeSetting :=
  located (bind name fun _ => bind (exactly rfl) fun _ => bind_pure (separated value .value))

theorem roles : Confined n roles roles :=
  between rfl rfl (separated name .name)

theorem anyToken {allowed : Token → Bool} (h : ∀ t, allowed t → t.isBrace = false) :
    Confined n (Parser.anyToken allowed) (Parser.anyToken allowed) :=
  token fun t value hvalue => h t (by simpa using (Option.ite_some_none_eq_some.1 hvalue).1)

/-! ## Bodies -/

/-- One token by itself is enclosed only as the closing brace, and no setting
starts with that. Two tokens are enough to see a setting. -/
theorem settingAhead_append {xs : List Lexeme} (hxs : Enclosed (xs.map Lexeme.token))
    (ys : List Lexeme) : settingAhead (xs ++ ys) = settingAhead xs := by
  match xs with
  | [] => exact absurd rfl hxs.ne_nil
  | [⟨t, start, stop⟩] =>
      obtain rfl := hxs.eq_closeBrace
      rfl
  | ⟨t, start, stop⟩ :: ⟨u, start', stop'⟩ :: rest =>
      cases t with
      | name text => cases u <;> rfl
      | _ => rfl

theorem headingToken : Confined n headingToken headingToken := by
  refine ⟨ReadsNoBrace.headingToken.balanced, fun xs ys hlength hxs => ?_⟩
  rw [Grammar.headingToken, Grammar.headingToken, settingAhead_append hxs]
  split
  · rfl
  · exact (anyToken fun t ht => by simp_all).followed xs ys hlength hxs

theorem headingTokens :
    Confined n (Parser.many Grammar.headingToken) (Parser.many Grammar.headingToken) :=
  many headingToken .headingToken .headingToken

variable {inner inner' : Parser (List Entry)}

theorem namedDeclaration {opening : Parser α} {heading : α → String → Heading}
    (hopening : Confined n opening opening) (hbalanced : ReadsBalanced inner)
    (hinner : ∀ k < n, Confined k inner inner') :
    Confined n (namedDeclaration opening heading inner)
      (namedDeclaration opening heading inner') :=
  located (bind hopening fun _ => bind name fun _ => bind headingTokens fun _ =>
    bind_pure (optional (braced hbalanced hinner)))

theorem unknownBlock (hbalanced : ReadsBalanced inner)
    (hinner : ∀ k < n, Confined k inner inner') :
    Confined n (unknownBlock inner) (unknownBlock inner') := by
  have keyword : Confined n (blockKeyword isDeclarationKeyword)
      (blockKeyword isDeclarationKeyword) :=
    token fun t _ h => by cases t <;> first | rfl | cases h
  exact located (bind keyword fun _ => bind headingTokens fun _ =>
    bind_pure (braced hbalanced hinner))

theorem bodyEntry {scope : Scope} (hbalanced : ReadsBalanced inner)
    (hinner : ∀ k < n, Confined k inner inner') :
    Confined n (bodyEntry scope inner) (bodyEntry scope inner') := by
  have quiet {text : String} : Confined n (quietKeyword text) (quietKeyword text) :=
    token fun t _ h => by cases t <;> first | rfl | simp [Token.isName] at h
  have object : Confined n objectKeyword objectKeyword :=
    token fun t _ h => by cases t <;> first | rfl | cases h
  have stray : Confined n strayToken strayToken :=
    bind_pure (anyToken fun t ht => by simp_all)
  have named {text : String} {heading : Unit → String → Heading} :
      Confined n (Grammar.namedDeclaration (quietKeyword text) heading inner)
        (Grammar.namedDeclaration (quietKeyword text) heading inner') :=
    namedDeclaration quiet hbalanced hinner
  exact firstOf_cons (map named) <|
    firstOf_cons (map (namedDeclaration object hbalanced hinner)) <|
    firstOf_cons (map named) <| firstOf_cons (map named) <| firstOf_cons (map named) <|
    firstOf_cons (map attributeSetting) <| firstOf_cons (map (unknownBlock hbalanced hinner)) <|
    firstOf_cons (map stray) firstOf_nil

theorem body {scope : Scope} : Confined n (body scope) (body scope) :=
  nested (fun _ hinner => .map (.many (.bodyEntry hinner)))
    fun _ _ _ hbalanced hbalanced' hinner =>
      map (many (bodyEntry hbalanced hinner) (.bodyEntry hbalanced) (.bodyEntry hbalanced'))

/-! ## Context maps -/

theorem connection : Confined n connection connection := by
  have mark {arrow : Arrow} : Confined n (arrowMark arrow) (arrowMark arrow) :=
    bind_pure (exactly rfl)
  have arrow : Confined n anyArrow anyArrow :=
    firstOf_cons mark <| firstOf_cons mark <| firstOf_cons mark firstOf_nil
  have keyword : Confined n relationKeyword relationKeyword :=
    token fun t _ h => by cases t <;> first | rfl | cases h
  exact firstOf_cons (bind keyword fun _ => bind_pure (optional arrow)) <|
    firstOf_cons (bind_pure arrow) firstOf_nil

theorem endpoint : Confined n endpoint endpoint :=
  located (bind (optional roles) fun _ => bind name fun _ => bind_pure (optional roles))

theorem relationAttributes : Confined n relationAttributes relationAttributes := by
  have stray (k : Nat) : Confined k (Parser.anyToken fun t => !t.isBrace)
      (Parser.anyToken fun t => !t.isBrace) :=
    anyToken fun t ht => by simpa using ht
  have advances : Advances (Parser.anyToken fun t => !t.isBrace) := .token
  refine map (braced (ReadsBalanced.many ?_) fun k _ => many ?_ ?_ ?_)
  · exact Consumes.orElse (ReadsBalanced.map .attributeSetting)
      (ReadsBalanced.map (stray n).balanced)
  · exact orElse (map attributeSetting) (map (stray k))
  · exact Consumes.orElse (Advances.map .attributeSetting) (Advances.map advances)
  · exact Consumes.orElse (Advances.map .attributeSetting) (Advances.map advances)

theorem relation : Confined n relation relation :=
  located (bind endpoint fun _ => bind connection fun _ => bind endpoint fun _ =>
    bind (optional (bind (exactly rfl) fun _ => name)) fun _ =>
      bind_pure (optional relationAttributes))

theorem mapEntry : Confined n mapEntry mapEntry :=
  firstOf_cons (bind (exactly rfl) fun _ => bind_pure references) <|
    firstOf_cons (map attributeSetting) <| firstOf_cons (map relation) firstOf_nil

end Confined

end Grammar

end Landscape
