import Landscape.Proofs.Grammar.Keywords

/-!
# Keywords outside braces

Outside all braces there is nothing to skip. A keyword of an element opens one
there, unless the rule that is reading takes it as something that any name could
be: the name of an element, or a reference in a clause of a context
(`Element.HasOwnKeyword`). Both can be told from the lexeme before it. So a keyword
that comes after anything else declares an element of its kind, with the name
that is written behind the keyword, or else no document is read
(`Document.ofLexemes_declares`).

A name may be missing without being missed, though. The names of elements are
names like any other, and the keyword of the next element is as good a name as
any (`Document.not_missing_name`).
-/

namespace Landscape

open Grammar

namespace Token

/-- A token behind which a clause of a context takes any name there is. -/
def LeadsReference (t : Token) : Prop :=
  t ∈ [.name "implements", .name "realizes", .name "refines", .comma]

instance (t : Token) : Decidable t.LeadsReference :=
  inferInstanceAs (Decidable (t ∈ _))

/-- A token behind which some rule takes any name there is. -/
def TakesName (t : Token) : Prop :=
  isTopLevelKeyword t ∨ t.LeadsReference

instance (t : Token) : Decidable t.TakesName :=
  inferInstanceAs (Decidable (_ ∨ _))

end Token

/-- What the keyword of an element is in an element, outside its braces and behind
some of its lexemes. -/
inductive Element.HasOwnKeyword (text : String) (before : List Lexeme) : Element → Prop
  | opens {e : Element} (before_eq : before = []) (known : ∀ decl, e ≠ .unknown decl)
      (opening_eq : e.opening.head? = some text) : HasOwnKeyword text before e
  | name {e : Element} {first : Lexeme} {keyword : String} (before_eq : before = [first])
      (opening_eq : e.opening = [keyword, text]) : HasOwnKeyword text before e
  | reference {decl : ContextDecl} {last : Lexeme} (last_mem : last ∈ before.getLast?)
      (leads : last.token.LeadsReference) : HasOwnKeyword text before (.context decl)

/-- Every keyword of an element in a stretch of lexemes, outside braces, opens the
element of that stretch or is taken as a name. -/
def Element.ShowsKeywords (e : Element) (stretch : List Lexeme) : Prop :=
  ∀ before key rest text, stretch = before ++ key :: rest → key.token = .name text →
    text ∈ topLevelKeywords → ¬LeavesOpen before → e.HasOwnKeyword text before

/-! ## Words in front of a body -/

namespace Grammar

variable {read head part before rest : List Lexeme} {key : Lexeme} {text : String} {e : Element}

/-- A brace that is open in a stretch stays open up to its last lexeme. -/
theorem leavesOpen_of_inside {front inside ahead : List Lexeme} {opening closing : Lexeme}
    (hfront : ∀ x ∈ front, x.token.isBrace = false) (hopening : opening.token = .openBrace)
    (hinside : Balanced (inside.map Lexeme.token))
    (h : inside ++ [closing] = before ++ key :: ahead) :
    LeavesOpen (front ++ opening :: before) := by
  have hinner : before <+: inside := by
    rcases append_eq_append_cons h with ⟨behind, rfl, hbehind⟩ | ⟨later, rfl, -⟩
    · cases behind with
      | nil => exact ⟨[], by simp⟩
      | cons y behind => simp at hbehind
    · exact ⟨key :: later, rfl⟩
  have hle := hinside.count_le _ (hinner.map Lexeme.token)
  have hcount := (balanced_of_not_brace hfront).count_eq
  simp only [LeavesOpen, List.map_append, List.map_cons, List.count_append, hopening, hcount,
    List.count_cons_self, List.count_cons_of_ne (show Token.openBrace ≠ .closeBrace by decide)]
  omega

/-- Nothing, or braces around lexemes in which they come in pairs. -/
inductive InBraces : List Lexeme → Prop
  | nil : InBraces []
  | braces {opening closing : Lexeme} {inside : List Lexeme}
      (opening_eq : opening.token = .openBrace) (balanced : Balanced (inside.map Lexeme.token)) :
      InBraces (opening :: (inside ++ [closing]))

theorem consumes_inBraces {α : Type} {p : Parser α} (hp : ReadsBalanced p) :
    Consumes (Parser.braced p) fun part _ => InBraces part := by
  refine (Consumes.between hp).imp ?_
  rintro _ _ ⟨opening, inside, closing, rfl, hopening, -, hinside⟩
  exact .braces hopening hinside

theorem consumes_optionalBody {scope : Scope} :
    Consumes (Parser.optional (Parser.braced (body scope))) fun part _ => InBraces part :=
  Consumes.optional (P := fun part _ => InBraces part) (consumes_inBraces .body) .nil

/-- Outside braces is in front of them, and the words there tell what a keyword
is. -/
theorem showsKeywords_of_head (hhead : ∀ x ∈ head, x.token.isBrace = false)
    (hpart : InBraces part)
    (hwords : ∀ before key rest text, head = before ++ key :: rest → key.token = .name text →
      text ∈ topLevelKeywords → e.HasOwnKeyword text before) :
    e.ShowsKeywords (head ++ part) := by
  intro before key rest text hread hkey htext hclosed
  rcases append_eq_append_cons hread with ⟨behind, rfl, hpart'⟩ | ⟨ahead, rfl, -⟩
  · cases hpart with
    | nil => simp at hpart'
    | braces hopening hinside =>
        cases behind with
        | nil =>
            obtain ⟨rfl, -⟩ := List.cons.inj hpart'
            rw [hkey] at hopening
            cases hopening
        | cons x behind =>
            obtain ⟨rfl, htail⟩ := List.cons.inj hpart'
            exact absurd (leavesOpen_of_inside hhead hopening hinside htail) hclosed
  · exact hwords before key ahead text rfl hkey htext

/-! ## Clauses -/

/-- What a clause of a context is read from: each keyword of an element in it comes
behind the keyword of the clause or a comma. -/
def ClauseWords (read : List Lexeme) : Prop :=
  ∀ before key rest text, read = before ++ key :: rest → key.token = .name text →
    text ∈ topLevelKeywords → ∃ last ∈ before.getLast?, last.token.LeadsReference

theorem ClauseWords.nil : ClauseWords [] := by
  intro before key rest text h
  simp at h

theorem ClauseWords.append {first second : List Lexeme} (hfirst : ClauseWords first)
    (hsecond : ClauseWords second) : ClauseWords (first ++ second) := by
  intro before key rest text h hkey htext
  rcases append_eq_append_cons h with ⟨behind, rfl, rfl⟩ | ⟨ahead, rfl, -⟩
  · obtain ⟨last, hlast, hleads⟩ := hsecond behind key rest text rfl hkey htext
    exact ⟨last, mem_getLast?_append hlast first, hleads⟩
  · exact hfirst before key ahead text rfl hkey htext

/-- The references of a clause behind its keyword. -/
theorem ClauseWords.of_commaSeparated {x : Lexeme} {ts : List Token} (hx : x.token.LeadsReference)
    (hnot : ¬isTopLevelKeyword x.token) (hread : read.map Lexeme.token = commaSeparated ts) :
    ClauseWords (x :: read) := by
  intro before key rest text h hkey htext
  cases before with
  | nil =>
      obtain ⟨rfl, -⟩ := List.cons.inj h
      rw [hkey] at hnot
      exact absurd (List.contains_iff_mem.2 htext) hnot
  | cons y before =>
      obtain ⟨rfl, rfl⟩ : x = y ∧ read = before ++ key :: rest := List.cons.inj h
      rw [List.map_append, List.map_cons] at hread
      rcases eq_nil_or_comma hread.symm (by rw [hkey]; nofun) with hnil | hcomma
      · obtain rfl := List.map_eq_nil_iff.1 hnil
        exact ⟨x, rfl, hx⟩
      · rw [List.getLast?_map] at hcomma
        obtain ⟨last, hlast, hcomma⟩ := Option.map_eq_some_iff.1 hcomma
        refine ⟨last, mem_getLast?_append hlast [x], ?_⟩
        rw [hcomma]
        decide

theorem consumes_referenceTokens : Consumes references fun read _ =>
    ∃ ts, read.map Lexeme.token = commaSeparated ts ∧ ts ≠ [] := by
  have single : Consumes reference fun read _ => ∃ x, read = [x] :=
    .spanned (.bind_pure (consumes_name.imp fun _ _ ⟨x, hx, _⟩ => ⟨x, hx⟩))
  refine Consumes.separated single ?_ ?_
  · rintro _ _ ⟨x, rfl⟩
    exact ⟨[x.token], rfl, nofun⟩
  · rintro _ _ comma others _ ⟨x, rfl⟩ hcomma ⟨ts, hothers, hne⟩
    refine ⟨x.token :: ts, ?_, nofun⟩
    rw [List.map_append, List.map_cons, List.map_cons, hothers, hcomma, commaSeparated_cons _ hne]
    rfl

theorem consumes_clauseWords : Consumes contextClause fun read _ => ClauseWords read := by
  have clause (ts : List Token) {t : Token} {x : Lexeme} {read : List Lexeme}
      (ht : t.LeadsReference ∧ ¬isTopLevelKeyword t) (hx : x.token = t)
      (hread : read.map Lexeme.token = commaSeparated ts) : ClauseWords ([x] ++ read) := by
    subst hx
    exact .of_commaSeparated ht.1 ht.2 hread
  refine Consumes.firstOf ?_
  simp only [List.forall_mem_cons]
  refine ⟨Consumes.bind consumes_exactly ?_, Consumes.bind consumes_exactly ?_,
    Consumes.bind consumes_exactly ?_, nofun⟩
  · rintro _ _ ⟨x, rfl, hx⟩
    exact Consumes.bind_pure (consumes_referenceTokens.imp fun _ _ ⟨ts, hread, _⟩ =>
      clause ts ⟨by decide, by decide⟩ hx hread)
  · rintro _ _ ⟨x, rfl, hx⟩
    exact Consumes.bind_pure (consumes_referenceTokens.imp fun _ _ ⟨ts, hread, _⟩ =>
      clause ts ⟨by decide, by decide⟩ hx hread)
  · rintro _ _ ⟨x, rfl, hx⟩
    refine Consumes.bind_pure ?_
    refine (Consumes.spanned (P := fun read _ => ClauseWords ([x] ++ read))
      (.bind_pure (consumes_name.imp ?_)))
    rintro _ _ ⟨y, rfl, -⟩
    exact clause [y.token] ⟨by decide, by decide⟩ hx rfl

/-! ## Elements -/

/-- An element that starts with its keyword. -/
theorem showsKeywords_of_opening {x : Lexeme} (words : List Lexeme) {keyword : String}
    (hx : x.token = .name keyword) (hknown : ∀ decl, e ≠ .unknown decl)
    (hopening : e.opening.head? = some keyword)
    (hflat : ∀ w ∈ words, w.token.isBrace = false)
    (hwords : ∀ before key rest text, words = before ++ key :: rest → key.token = .name text →
      text ∈ topLevelKeywords → e.HasOwnKeyword text (x :: before))
    (hpart : InBraces part) : e.ShowsKeywords (x :: words ++ part) := by
  refine showsKeywords_of_head ?_ hpart fun before key rest text hread hkey htext => ?_
  · simpa [hx, Token.isBrace] using hflat
  · cases before with
    | nil =>
        obtain ⟨rfl, -⟩ := List.cons.inj hread
        rw [hx] at hkey
        obtain rfl := Token.name.inj hkey
        exact .opens rfl hknown hopening
    | cons y before =>
        obtain ⟨rfl, htail⟩ : x = y ∧ words = before ++ key :: rest := List.cons.inj hread
        exact hwords before key rest text htail hkey htext

/-- An element that is a keyword and a name in front of its body. -/
theorem showsKeywords_of_named {x y : Lexeme} {keyword name : String}
    (hx : x.token = .name keyword) (hy : y.token = .name name)
    (hopening : e.opening = [keyword, name]) (hpart : InBraces part) :
    e.ShowsKeywords ([x, y] ++ part) := by
  have hknown : ∀ decl, e ≠ .unknown decl := by
    rintro decl rfl
    cases hopening
  refine showsKeywords_of_opening [y] hx hknown (by rw [hopening]; rfl)
    (by simp [hy, Token.isBrace]) (fun before key rest text hread hkey _ => ?_) hpart
  cases before with
  | nil =>
      obtain ⟨rfl, -⟩ := List.cons.inj hread
      rw [hy] at hkey
      obtain rfl := Token.name.inj hkey
      exact .name rfl hopening
  | cons z before => simp at hread

/-- A declaration without meaning has no keyword of an element in front of its
braces. -/
theorem showsKeywords_of_not_keyword (head : List Lexeme) (hhead : ∀ x ∈ head, x.token.isBrace = false)
    (hnot : ∀ x ∈ head, isTopLevelKeyword x.token = false) (hpart : InBraces part) :
    e.ShowsKeywords (head ++ part) := by
  refine showsKeywords_of_head hhead hpart ?_
  rintro before key rest text rfl hkey htext
  have hkeyword := hnot key (by simp)
  rw [hkey, isTopLevelKeyword, isOneOf, List.contains_iff_mem.2 htext] at hkeyword
  cases hkeyword

theorem domain_showsKeywords :
    Consumes domain fun read decl => (Element.domain decl).ShowsKeywords read := by
  refine Consumes.spanned (Consumes.bind consumes_exactly ?_)
  rintro _ _ ⟨x, rfl, hx⟩
  refine Consumes.bind consumes_name ?_
  rintro _ name ⟨y, rfl, hy⟩
  refine Consumes.bind_pure (consumes_optionalBody.imp fun part entries hpart => ?_)
  exact showsKeywords_of_named hx hy rfl hpart

theorem useCase_showsKeywords :
    Consumes useCase fun read decl => (Element.useCase decl).ShowsKeywords read := by
  refine Consumes.spanned (Consumes.bind consumes_exactly ?_)
  rintro _ _ ⟨x, rfl, hx⟩
  refine Consumes.bind consumes_name ?_
  rintro _ name ⟨y, rfl, hy⟩
  refine Consumes.bind_pure (consumes_optionalBody.imp fun part entries hpart => ?_)
  exact showsKeywords_of_named hx hy rfl hpart

/-- Behind the name of a context come its clauses. -/
theorem boundedContext_showsKeywords :
    Consumes boundedContext fun read decl => (Element.context decl).ShowsKeywords read := by
  have clauses : Consumes (Parser.many contextClause) fun words _ => ClauseWords words :=
    Consumes.many consumes_clauseWords .nil fun _ _ _ _ hfirst hothers => hfirst.append hothers
  refine Consumes.spanned (Consumes.bind consumes_exactly ?_)
  rintro _ _ ⟨x, rfl, hx⟩
  refine Consumes.bind consumes_name ?_
  rintro _ name ⟨y, rfl, hy⟩
  refine Consumes.bind (clauses.and ReadsNoBrace.contextClause.many) fun words _ hwords => ?_
  refine Consumes.bind_pure (consumes_optionalBody.imp fun part entries hpart => ?_)
  refine showsKeywords_of_opening (y :: words) hx nofun rfl ?_ ?_ hpart
  · simpa [hy, Token.isBrace] using hwords.2
  · intro before key rest text hread hkey htext
    cases before with
    | nil =>
        obtain ⟨rfl, -⟩ := List.cons.inj hread
        rw [hy] at hkey
        obtain rfl := Token.name.inj hkey
        exact .name rfl rfl
    | cons z before =>
        obtain ⟨last, hlast, hleads⟩ :=
          hwords.1 before key rest text (List.cons.inj hread).2 hkey htext
        exact .reference (mem_getLast?_append hlast [x, z]) hleads

theorem contextMap_showsKeywords :
    Consumes contextMap fun read decl => (Element.map decl).ShowsKeywords read := by
  have named : Consumes (Parser.optional name) fun words text =>
      words = [] ∧ text = none ∨
        ∃ (y : Lexeme) (called : String), words = [y] ∧ y.token = .name called ∧ text = called :=
    Consumes.optional
      (consumes_name.imp fun _ text ⟨y, hwords, hy⟩ => .inr ⟨y, text, hwords, hy, rfl⟩)
      (.inl ⟨rfl, rfl⟩)
  refine Consumes.spanned (Consumes.bind consumes_exactly ?_)
  rintro _ _ ⟨x, rfl, hx⟩
  refine Consumes.bind named fun words text hwords => ?_
  refine Consumes.bind_pure ((consumes_inBraces ReadsBalanced.mapEntry.many).imp ?_)
  intro part entries hpart
  rcases hwords with ⟨rfl, rfl⟩ | ⟨y, called, rfl, hy, rfl⟩
  · refine showsKeywords_of_opening [] hx nofun rfl nofun ?_ hpart
    intro before key rest text hread
    simp at hread
  · exact showsKeywords_of_named hx hy rfl hpart

theorem importLine_showsKeywords :
    Consumes importLine fun read decl => (Element.unknown decl).ShowsKeywords read := by
  refine Consumes.spanned (Consumes.bind consumes_exactly ?_)
  rintro _ _ ⟨x, rfl, hx⟩
  refine Consumes.bind_pure (Consumes.token fun found path h => ?_)
  have hfound : found.token = .string path := by
    cases ht : found.token <;> rw [ht] at h <;> cases h
    rfl
  refine showsKeywords_of_not_keyword [x, found] ?_ ?_ .nil
  · simp [hx, hfound, Token.isBrace]
  · simp only [List.forall_mem_cons, hx, hfound]
    exact ⟨by decide, rfl, List.forall_mem_nil _⟩

theorem unknownDeclaration_showsKeywords :
    Consumes unknownDeclaration fun read decl => (Element.unknown decl).ShowsKeywords read := by
  have word : Consumes (Parser.anyToken fun t => !(t.isBrace || isTopLevelKeyword t))
      fun read _ => ∀ x ∈ read, x.token.isBrace = false ∧ isTopLevelKeyword x.token = false := by
    refine Consumes.token fun found t h => List.forall_mem_singleton.2 ?_
    obtain ⟨hallowed, -⟩ := Option.ite_some_none_eq_some.1 h
    simpa using hallowed
  refine Consumes.spanned (Consumes.bind consumes_blockKeyword ?_)
  rintro _ text ⟨x, rfl, hx, hnot⟩
  have words := Consumes.many word (P := fun read _ =>
    ∀ x ∈ read, x.token.isBrace = false ∧ isTopLevelKeyword x.token = false) nofun
    fun _ _ _ _ hfirst hothers => List.forall_mem_append.2 ⟨hfirst, hothers⟩
  refine Consumes.bind words fun words _ hwords => ?_
  refine Consumes.bind_pure (consumes_optionalBody.imp fun part entries hpart => ?_)
  refine showsKeywords_of_not_keyword (x :: words) ?_ ?_ hpart
  · exact List.forall_mem_cons.2 ⟨by rw [hx]; rfl, fun w hw => (hwords w hw).1⟩
  · exact List.forall_mem_cons.2 ⟨by rw [hx]; exact hnot, fun w hw => (hwords w hw).2⟩

theorem element_showsKeywords : Consumes element fun read e => e.ShowsKeywords read := by
  refine Consumes.firstOf ?_
  simp only [List.forall_mem_cons]
  exact ⟨Consumes.map domain_showsKeywords, Consumes.map boundedContext_showsKeywords,
    Consumes.map contextMap_showsKeywords, Consumes.map useCase_showsKeywords,
    Consumes.map importLine_showsKeywords, Consumes.map unknownDeclaration_showsKeywords, nofun⟩

/-- What is known of the stretch of an element. -/
structure Declared (stretch : List Lexeme) (e : Element) : Prop where
  span_eq : e.span = spanOf stretch
  opens : e.opening.map .name <+: stretch.map Lexeme.token
  balanced : Balanced (stretch.map Lexeme.token)
  shows : e.ShowsKeywords stretch

theorem consumes_elements : Consumes (Parser.many element) fun read elements =>
    ∃ stretches : List (List Lexeme), stretches.flatten = read ∧
      List.Forall₂ Declared stretches elements := by
  have read : Consumes element fun read e => ∃ after, ElementRead after read e :=
    Splits.imp splits_element fun _ after _ h => ⟨after, h⟩
  have declared : Consumes element Declared :=
    (read.and element_showsKeywords).imp fun stretch e ⟨⟨_, hread⟩, hshows⟩ =>
      ⟨hread.laidOut.span_eq, hread.laidOut.opens, hread.balanced, hshows⟩
  refine Consumes.many declared ⟨[], rfl, .nil⟩ ?_
  rintro first e _ elements hfirst ⟨stretches, rfl, hothers⟩
  exact ⟨first :: stretches, rfl, .cons hfirst hothers⟩

/-- A place outside braces is in one of the elements, and outside its braces. -/
theorem exists_declared {stretches : List (List Lexeme)} {elements : List Element}
    (h : List.Forall₂ Declared stretches elements)
    (hplace : stretches.flatten = before ++ key :: rest) (hclosed : ¬LeavesOpen before) :
    ∃ front own ahead, before = front ++ own ∧ ahead <+: rest ∧ ¬LeavesOpen own ∧
      ∃ e ∈ elements, Declared (own ++ key :: ahead) e := by
  induction h generalizing before with
  | nil => simp at hplace
  | @cons stretch e stretches elements hfirst _ ih =>
      rw [List.flatten_cons] at hplace
      rcases append_eq_append_cons hplace with ⟨behind, rfl, hbehind⟩ | ⟨ahead, rfl, rfl⟩
      · have hbehind' : ¬LeavesOpen behind := by
          have hcount := hfirst.balanced.count_eq
          rw [LeavesOpen, List.map_append, List.count_append, List.count_append] at hclosed
          rw [LeavesOpen]
          omega
        obtain ⟨front, own, ahead, rfl, hahead, hown, e', hmem, hread⟩ := ih hbehind hbehind'
        exact ⟨stretch ++ front, own, ahead, by simp, hahead, hown, e',
          List.mem_cons_of_mem _ hmem, hread⟩
      · exact ⟨[], before, ahead, rfl, List.prefix_append .., hclosed, e, List.mem_cons_self,
          hfirst⟩

end Grammar

/-! ## Documents -/

theorem Element.keyword_mem_of_opening {e : Element} {keyword name : String}
    (h : e.opening = [keyword, name]) : keyword ∈ topLevelKeywords := by
  cases e with
  | unknown decl => cases h
  | _ =>
      obtain ⟨rfl, -⟩ := List.cons.inj h
      decide

theorem Element.exists_name_of_opening {e : Element} {keyword : String}
    (hknown : ∀ decl, e ≠ .unknown decl) (hmap : keyword ≠ "ContextMap")
    (h : e.opening.head? = some keyword) : ∃ name, e.opening = [keyword, name] := by
  cases e with
  | map decl => exact absurd (Option.some.inj h).symm hmap
  | unknown decl => exact absurd rfl (hknown decl)
  | _ =>
      obtain rfl := Option.some.inj h
      exact ⟨_, rfl⟩

theorem mem_head?_mono {α : Type} {xs ys : List α} {x : α} (h : xs <+: ys)
    (hx : x ∈ xs.head?) : x ∈ ys.head? := by
  obtain ⟨more, rfl⟩ := h
  exact List.mem_head?_append_of_mem_head? hx

namespace Document

theorem exists_declared {lexemes : List Lexeme} {d : Document}
    (h : Document.ofLexemes lexemes = .ok d) :
    ∃ stretches : List (List Lexeme), stretches.flatten = lexemes ∧
      List.Forall₂ Declared stretches d.elements := by
  obtain ⟨doubt, hmany⟩ := ofLexemes_eq_ok_iff.1 h
  obtain ⟨read, hread, stretches, rfl, hstretches⟩ := Grammar.consumes_elements _ _ _ _ hmany
  rw [List.append_nil] at hread
  exact ⟨stretches, hread.symm, hstretches⟩

/-- The keyword of an element outside braces opens one, if no rule takes it as a
name. -/
theorem exists_opened {before rest : List Lexeme} {key : Lexeme} {text : String} {d : Document}
    (h : Document.ofLexemes (before ++ key :: rest) = .ok d) (hkey : key.token = .name text)
    (htext : text ∈ topLevelKeywords) (hclosed : ¬LeavesOpen before)
    (hfree : ∀ last ∈ before.getLast?, ¬last.token.TakesName) :
    ∃ e ∈ d.elements, (∀ decl, e ≠ .unknown decl) ∧ e.opening.head? = some text ∧
      ∃ ahead, ahead <+: rest ∧ e.span = spanOf (key :: ahead) ∧
        e.opening.map .name <+: (key :: ahead).map Lexeme.token := by
  obtain ⟨stretches, hflatten, hstretches⟩ := exists_declared h
  obtain ⟨front, own, ahead, rfl, hahead, hown, e, hmem, hread⟩ :=
    Grammar.exists_declared hstretches hflatten hclosed
  have htaken : ∀ last ∈ own.getLast?, ¬last.token.TakesName := fun last hlast =>
    hfree last (mem_getLast?_append hlast front)
  cases hread.shows own key ahead text rfl hkey htext hown with
  | opens hnil hknown hopening =>
      subst hnil
      exact ⟨e, hmem, hknown, hopening, ahead, hahead, hread.span_eq, hread.opens⟩
  | @name _ first keyword hfirst hopening =>
      subst hfirst
      -- The lexeme before it is the keyword of the element that it would name.
      have hopens := hread.opens
      rw [hopening] at hopens
      have hfirst : first.token = .name keyword := (List.cons_prefix_cons.1 hopens).1.symm
      refine absurd (.inl ?_) (htaken first rfl)
      rw [hfirst, isTopLevelKeyword, isOneOf, List.contains_iff_mem]
      exact Element.keyword_mem_of_opening hopening
  | reference hlast hleads => exact absurd (.inr hleads) (htaken _ hlast)

/-- Outside braces, the keyword of an element opens one, names one or is what a
clause of a context refers to. Where nothing takes it as a name it declares an
element with the name that is written behind it, and if no name is written there
the lexemes are no document. -/
theorem ofLexemes_declares (lexemes : List Lexeme) :
    (∀ d, Document.ofLexemes lexemes = .ok d →
      ∃ stretches : List (List Lexeme), stretches.flatten = lexemes ∧
        List.Forall₂ Declared stretches d.elements) ∧
      ∀ before key rest text, lexemes = before ++ key :: rest → key.token = .name text →
        text ∈ topLevelKeywords → ¬LeavesOpen before →
        (∀ last ∈ before.getLast?, ¬last.token.TakesName) →
        (∀ d, Document.ofLexemes lexemes = .ok d →
          ∃ e ∈ d.elements, (∀ decl, e ≠ .unknown decl) ∧ e.opening.head? = some text ∧
            ∃ ahead, ahead <+: rest ∧ e.span = spanOf (key :: ahead) ∧
              e.opening.map .name <+: (key :: ahead).map Lexeme.token) ∧
          (text ≠ "ContextMap" → (∀ next ∈ rest.head?, ∀ name, next.token ≠ .name name) →
            ∃ failure, Document.ofLexemes lexemes = .error failure) := by
  refine ⟨fun d => exists_declared, ?_⟩
  rintro before key rest text rfl hkey htext hclosed hfree
  refine ⟨fun d hd => exists_opened hd hkey htext hclosed hfree, fun hmap hmissing => ?_⟩
  cases hd : Document.ofLexemes (before ++ key :: rest) with
  | error failure => exact ⟨failure, rfl⟩
  | ok d =>
      obtain ⟨e, -, hknown, hopening, ahead, hahead, -, hopens⟩ :=
        exists_opened hd hkey htext hclosed hfree
      obtain ⟨name, hname⟩ := Element.exists_name_of_opening hknown hmap hopening
      rw [hname] at hopens
      obtain ⟨next, hnext, htoken⟩ : ∃ next ∈ ahead.head?, next.token = .name name := by
        have hbehind := (List.cons_prefix_cons.1 hopens).2
        cases ahead with
        | nil => simp at hbehind
        | cons next ahead => exact ⟨next, rfl, (List.cons_prefix_cons.1 hbehind).1.symm⟩
      exact absurd htoken (hmissing next (mem_head?_mono hahead hnext) name)

/-- After a domain a context is declared, and without its name there is no
document. -/
theorem contextAfterDomain_declares :
    let before : List Lexeme := [⟨.name "Domain", 0, 6⟩, ⟨.name "D", 7, 8⟩]
    let key : Lexeme := ⟨.name "BoundedContext", 9, 23⟩
    let named : List Lexeme := [⟨.name "A", 24, 25⟩]
    let unnamed : List Lexeme := [⟨.openBrace, 24, 25⟩, ⟨.closeBrace, 25, 26⟩]
    (∃ d, Document.ofLexemes (before ++ key :: named) = .ok d ∧ ∃ e ∈ d.elements,
      (∀ decl, e ≠ .unknown decl) ∧ e.opening.head? = some "BoundedContext" ∧
        ∃ ahead, ahead <+: named ∧ e.span = spanOf (key :: ahead) ∧
          e.opening.map .name <+: (key :: ahead).map Lexeme.token) ∧
      ∃ failure, Document.ofLexemes (before ++ key :: unnamed) = .error failure := by
  intro before key named unnamed
  have hclosed : ¬LeavesOpen before := by decide
  have hfree : ∀ last ∈ before.getLast?, ¬last.token.TakesName := by decide
  have hmissing : ∀ next ∈ unnamed.head?, ∀ name, next.token ≠ .name name := by
    rintro _ ⟨⟩ name
    nofun
  have hnamed := (ofLexemes_declares (before ++ key :: named)).2 before key named _ rfl rfl
    (by decide) hclosed hfree
  have hunnamed := (ofLexemes_declares (before ++ key :: unnamed)).2 before key unnamed _ rfl rfl
    (by decide) hclosed hfree
  exact ⟨⟨_, rfl, hnamed.1 _ rfl⟩, hunnamed.2 (by decide) hmissing⟩

/-- A domain whose name is missing takes that of the keyword behind it, and the
context that the keyword should have opened is lost. -/
theorem not_missing_name :
    ¬∀ opening next rest d, Document.ofLexemes (opening :: next :: rest) = .ok d →
      opening.token = .name "Domain" →
        ∃ text, next.token = .name text ∧ text ∉ topLevelKeywords := by
  intro h
  have hlost : Document.ofLexemes [⟨.name "Domain", 0, 6⟩, ⟨.name "BoundedContext", 7, 21⟩,
      ⟨.name "A", 22, 23⟩, ⟨.openBrace, 24, 25⟩, ⟨.closeBrace, 25, 26⟩] =
      .ok ⟨[.domain ⟨"BoundedContext", [], ⟨0, 21⟩⟩, .unknown ⟨"A", [], some [], ⟨22, 26⟩⟩]⟩ := rfl
  obtain ⟨text, htoken, hnot⟩ := h _ _ _ _ hlost rfl
  obtain rfl := Token.name.inj htoken
  exact hnot (by decide)

end Document

end Landscape
