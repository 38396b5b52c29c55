import Landscape.Proofs.Grammar.Settings

/-!
# No keyword is skipped

A body skips what it does not know, and whatever comes after a brace that is not
closed would be skipped as well, were it not for the keywords. A keyword of a
declaration is never skipped. Between braces it opens a declaration, or it is the
name of one, or a key or a value (`Document.ofLexemes_keywords`). The keywords of
whole elements open nothing there, so only the other three are left for them. If
the lexemes next to such a keyword rule these out (`Stranded`), then it is in a
context map, or no document is read at all.

Of the pieces that a body is made of, a skipped token is no keyword, and neither
are the words of a heading behind the name (`HeadRead.hasKeyword`). The body that
a keyword is in is that of the last brace that is still open before it
(`exists_innermost`). That brace belongs to the element in which the keyword is,
because the elements before it close what they open (`exists_elementRead`).
-/

namespace Landscape

open Grammar

/-- What a keyword is in an entry, whose lexemes are some in front of the keyword,
the keyword, and some behind it. -/
inductive Entry.HasKeyword (text : String) (own ahead : List Lexeme) : Entry → Prop
  | opens {name : Lexeme} {later : List Lexeme} {called : String} {heading : Heading}
      {body : List Entry} {span : Span} (own_eq : own = []) (ahead_eq : ahead = name :: later)
      (name_eq : name.token = .name called) (named : Heading.named? text called = some heading) :
      HasKeyword text own ahead (.declaration heading body span)
  | name {opening : Lexeme} {keyword : String} {heading : Heading} {body : List Entry}
      {span : Span} (own_eq : own = [opening]) (opening_eq : opening.token = .name keyword)
      (named : Heading.named? keyword text = some heading) :
      HasKeyword text own ahead (.declaration heading body span)
  | key {equals : Lexeme} {later : List Lexeme} {scope : Scope} {a : Attribute}
      (own_eq : own = []) (ahead_eq : ahead = equals :: later)
      (equals_eq : equals.token = .equals) (key_eq : a.key = text) :
      HasKeyword text own ahead (.setting scope a)
  | value {front : List Lexeme} {last : Lexeme} {scope : Scope} {a : Attribute}
      (own_eq : own = front ++ [last]) (last_eq : last.token = .equals ∨ last.token = .comma)
      (mem : .name text ∈ a.values) : HasKeyword text own ahead (.setting scope a)

/-! ## Braces that are open -/

/-- Whether more braces are opened than closed. -/
def LeavesOpen (before : List Lexeme) : Prop :=
  (before.map Lexeme.token).count .closeBrace < (before.map Lexeme.token).count .openBrace

instance (before : List Lexeme) : Decidable (LeavesOpen before) :=
  inferInstanceAs (Decidable (_ < _))

/-- If braces are open, one of them was opened last. -/
theorem exists_innermost {before : List Lexeme} (h : LeavesOpen before) :
    ∃ front opening inner, before = front ++ opening :: inner ∧ opening.token = .openBrace ∧
      Balanced (inner.map Lexeme.token) := by
  induction hn : before.length using Nat.strongRecOn generalizing before with
  | ind n ih =>
      rcases List.eq_nil_or_concat before with rfl | ⟨before, x, rfl⟩
      · exact absurd h (Nat.lt_irrefl 0)
      rw [List.concat_eq_append] at h hn ⊢
      rw [List.length_append, List.length_singleton] at hn
      rw [LeavesOpen, List.map_append, List.count_append, List.count_append] at h
      by_cases hopen : x.token = .openBrace
      · exact ⟨before, x, [], rfl, hopen, .nil⟩
      by_cases hclose : x.token = .closeBrace
      · -- The brace it closes is the last one before, and the one before that is looked for.
        simp only [List.map_cons, List.map_nil, hclose, List.count_singleton] at h
        have hbefore : LeavesOpen before := by
          rw [LeavesOpen]
          simp at h
          omega
        obtain ⟨front, opening, inner, rfl, hopening, hinner⟩ :=
          ih before.length (by omega) hbefore rfl
        have hfront : LeavesOpen front := by
          rw [LeavesOpen]
          simp [hopening, hinner.count_eq] at h
          omega
        obtain ⟨front, opening', inner', rfl, hopening', hinner'⟩ :=
          ih front.length (by simp at hn; omega) hfront rfl
        refine ⟨front, opening', inner' ++ opening :: (inner ++ [x]), by simp, hopening', ?_⟩
        have hblock := hinner'.append hinner.inBraces
        simpa [inBraces, hopening, hclose] using hblock
      · have hflat : x.token.isBrace = false := by
          cases hx : x.token <;> first | rfl | exact absurd hx hopen | exact absurd hx hclose
        have hbefore : LeavesOpen before := by
          simpa [LeavesOpen, List.count_singleton, hopen, hclose] using h
        obtain ⟨front, opening, inner, rfl, hopening, hinner⟩ :=
          ih before.length (by omega) hbefore rfl
        refine ⟨front, opening, inner ++ [x], by simp, hopening, ?_⟩
        rw [List.map_append]
        exact hinner.append (.of_isBrace_eq_false (by simpa using hflat))

/-! ## Pieces of a body -/

namespace Grammar

variable {scope : Scope} {after own ahead before rest : List Lexeme} {key : Lexeme}
  {text : String} {entries : List Entry} {body : List Entry} {span : Span}

theorem mem_of_mem_commaSeparated {t : Token} {ts : List Token} (h : t ∈ commaSeparated ts)
    (ht : t ≠ .comma) : t ∈ ts := by
  cases ts with
  | nil => exact h
  | cons u ts => simpa [commaSeparated, ht] using h

theorem name_mem_of_map_ofToken? {ts : List Token} {values : List Value}
    (h : ts.map Value.ofToken? = values.map some) (hmem : .name text ∈ ts) :
    .name text ∈ values := by
  have hof : Value.ofToken? (.name text) ∈ ts.map Value.ofToken? := List.mem_map_of_mem hmem
  rw [h] at hof
  obtain ⟨value, hvalue, heq⟩ := List.mem_map.1 hof
  cases heq
  exact hvalue

theorem SettingRead.hasKeyword {a : Attribute} (h : SettingRead (own ++ key :: ahead) a)
    (hkey : key.token = .name text) (scope : Scope) :
    (Entry.setting scope a).HasKeyword text own ahead := by
  obtain ⟨ts, hts, -, hvalues⟩ := h.exists_tokens
  match own with
  | [] =>
      obtain ⟨hname, hrest⟩ := List.cons.inj hts
      cases ahead with
      | nil => cases hrest
      | cons equals later =>
          refine .key rfl rfl (List.cons.inj hrest).1 ?_
          rw [hkey] at hname
          exact (Token.name.inj hname).symm
  | [x] =>
      have hequals := (List.cons.inj (List.cons.inj hts).2).1
      rw [hkey] at hequals
      cases hequals
  | x :: y :: own =>
      simp only [List.cons_append, List.map_cons, List.map_append] at hts
      obtain ⟨-, hy, hrest⟩ : _ ∧ y.token = .equals ∧ _ = commaSeparated ts := by simpa using hts
      have hne : key.token ≠ .comma := by
        rw [hkey]
        nofun
      have hvalue : .name text ∈ a.values := by
        have hmem : key.token ∈ ts := mem_of_mem_commaSeparated (by simp [← hrest]) hne
        rw [hkey] at hmem
        exact name_mem_of_map_ofToken? hvalues hmem
      rcases List.eq_nil_or_concat own with rfl | ⟨front, last, rfl⟩
      · have hown : [x, y] = [x] ++ [y] := rfl
        exact .value hown (.inl hy) hvalue
      · have hown : x :: y :: front.concat last = x :: y :: front ++ [last] := by simp
        refine .value hown (.inr ?_) hvalue
        rcases eq_nil_or_comma hrest.symm hne with hnil | hcomma
        · simp at hnil
        · simpa using hcomma

theorem Words.not_keyword {words : List Lexeme} (h : Words after words) :
    ∀ x ∈ words, isDeclarationKeyword x.token = false := by
  induction h with
  | nil => exact nofun
  | cons hword _ _ ih => exact List.forall_mem_cons.2 ⟨hword.not_keyword, ih⟩

/-- Only the keyword and the name of a declaration can be keywords in its
heading. -/
theorem HeadRead.hasKeyword {heading : Heading} (h : HeadRead after (own ++ key :: ahead) heading)
    (hkey : key.token = .name text) (hkeyword : isDeclarationKeyword key.token = true)
    (block : List Lexeme) :
    (Entry.declaration heading body span).HasKeyword text own (ahead ++ block) := by
  have absurd_words {words : List Lexeme} (hwords : Words after words) : key ∉ words := by
    intro hmem
    rw [hwords.not_keyword key hmem] at hkeyword
    cases hkeyword
  generalize hread : own ++ key :: ahead = read at h
  cases h with
  | @named opening name words keyword called heading hopening hname hnamed hwords =>
      match own with
      | [] =>
          obtain ⟨rfl, rfl⟩ := List.cons.inj hread
          rw [hkey] at hopening
          obtain rfl := Token.name.inj hopening
          exact .opens rfl rfl hname hnamed
      | [x] =>
          obtain ⟨rfl, hrest⟩ := List.cons.inj hread
          obtain ⟨rfl, -⟩ := List.cons.inj hrest
          rw [hkey] at hname
          obtain rfl := Token.name.inj hname
          exact .name rfl hopening hnamed
      | x :: y :: own =>
          obtain ⟨-, hrest⟩ := List.cons.inj hread
          obtain ⟨-, rfl⟩ := List.cons.inj hrest
          exact absurd (by simp) (absurd_words hwords)
  | unknown _ hwords =>
      rw [← hread] at hwords
      exact absurd (by simp) (absurd_words hwords)

/-- The lexemes of an entry that a keyword is in. -/
structure KeywordAt (text : String) (entries : List Entry) (before : List Lexeme) (key : Lexeme)
    (rest : List Lexeme) : Prop where
  exists_entry : ∃ entry ∈ entries, ∃ own ahead, own <:+ before ∧ ahead <+: rest ∧
    entry.span = spanOf (own ++ key :: ahead) ∧ entry.HasKeyword text own ahead

theorem BodyRead.keywordAt (h : BodyRead scope (before ++ key :: rest) after entries)
    (hbefore : Balanced (before.map Lexeme.token)) (hkey : key.token = .name text)
    (hkeyword : isDeclarationKeyword key.token = true) :
    KeywordAt text entries before key rest := by
  cases h.pieceAt rfl hbefore hkey with
  | stray hno _ =>
      rw [hno] at hkeyword
      cases hkeyword
  | setting hown hrest hreads hmem =>
      exact ⟨_, hmem, _, _, hown, ⟨_, hrest.symm⟩, hreads.span_eq, hreads.hasKeyword hkey scope⟩
  | @heading own ahead block later _ _ hown hrest hreads hmem =>
      have hprefix : ahead ++ block <+: rest := ⟨later, by rw [hrest, List.append_assoc]⟩
      exact ⟨_, hmem, own, _, hown, hprefix, rfl, hreads.hasKeyword hkey hkeyword block⟩

end Grammar

/-! ## Elements -/

/-- Every keyword between braces, in a stretch of lexemes, is in an entry of the
body that the innermost of these braces enclose. -/
def Element.KeepsKeywords (e : Element) (stretch : List Lexeme) : Prop :=
  ∀ before key rest text, stretch = before ++ key :: rest → key.token = .name text →
    text ∈ declarationKeywords → LeavesOpen before →
    ∃ front opening inner ahead closing back own later entry,
      before = front ++ opening :: inner ∧ opening.token = .openBrace ∧
      rest = ahead ++ closing :: back ∧ closing.token = .closeBrace ∧
      Balanced (inner.map Lexeme.token) ∧ Balanced ((inner ++ key :: ahead).map Lexeme.token) ∧
      e.HoldsBetween front opening (inner ++ key :: ahead) closing back entry ∧
      own <:+ inner ∧ later <+: ahead ∧ entry.span = spanOf (own ++ key :: later) ∧
      entry.HasKeyword text own later

namespace Grammar

variable {after stretch : List Lexeme} {e : Element}

theorem ElementRead.keepsKeywords (h : ElementRead after stretch e)
    (hmap : ∀ decl, e ≠ .map decl) : e.KeepsKeywords stretch := by
  intro before key rest text hstretch hkey htext hopen
  obtain ⟨front, opening, inner, rfl, hopening, hinner⟩ := exists_innermost hopen
  obtain ⟨ahead, closing, back, entries, rfl, hclosing, hinside, hholds⟩ :=
    (h.enclosedBy hmap (by simpa using hstretch) hopening hinner hkey).exists_eq
  have hkeyword : isDeclarationKeyword key.token = true := by
    rw [hkey]
    exact List.contains_iff_mem.2 htext
  obtain ⟨entry, hmem, own, later, hown, hlater, hspan, hentry⟩ :=
    (hinside.keywordAt hinner hkey hkeyword).exists_entry
  exact ⟨front, opening, inner, ahead, closing, back, own, later, entry, rfl, hopening, rfl,
    hclosing, hinner, hinside.balanced, hholds entry hmem, hown, hlater, hspan, hentry⟩

theorem OptionalRead.balanced {scope : Scope} {part : List Lexeme} {entries : Option (List Entry)}
    (h : OptionalRead scope after part entries) : Balanced (part.map Lexeme.token) := by
  cases h with
  | none => exact .nil
  | some hbraced =>
      obtain ⟨hopening, hclosing, hinside⟩ := hbraced
      simpa [inBraces, hopening, hclosing] using hinside.balanced.inBraces

theorem ElementRead.balanced (h : ElementRead after stretch e) :
    Balanced (stretch.map Lexeme.token) := by
  obtain ⟨decl, -, hmap⟩ | ⟨head, part, entries, rfl, hhead, hpart, -⟩ := h.exists_eq
  · exact hmap
  · rw [List.map_append]
    exact (balanced_of_not_brace hhead).append hpart.balanced

end Grammar

/-! ## Keywords without a place -/

/-- A keyword is neither the name of a declaration, whose keyword would come
before it, nor a key, nor a value. -/
structure Stranded (text : String) (before rest : List Lexeme) : Prop where
  not_name : ∀ last ∈ before.getLast?, ∀ keyword, last.token = .name keyword →
    Heading.named? keyword text = none
  not_key : ∀ next ∈ rest.head?, next.token ≠ .equals
  not_value : ∀ last ∈ before.getLast?, last.token ≠ .equals ∧ last.token ≠ .comma

theorem Heading.named?_topLevelKeywords {text : String} (h : text ∈ topLevelKeywords)
    (name : String) : named? text name = none := by
  simp only [topLevelKeywords, List.mem_cons, List.not_mem_nil, or_false] at h
  obtain rfl | rfl | rfl | rfl := h <;> rfl

/-- In a body the keyword of an element opens nothing, so it has one of the other
three places. -/
theorem Entry.HasKeyword.not_stranded {entry : Entry} {text : String}
    {own ahead before rest : List Lexeme} (h : entry.HasKeyword text own ahead)
    (htext : text ∈ topLevelKeywords) (hown : own <:+ before) (hahead : ahead <+: rest) :
    ¬Stranded text before rest := by
  intro hstranded
  obtain ⟨front, rfl⟩ := hown
  obtain ⟨back, rfl⟩ := hahead
  cases h with
  | opens _ _ _ hnamed =>
      rw [Heading.named?_topLevelKeywords htext] at hnamed
      cases hnamed
  | name hown hopening hnamed =>
      subst hown
      rw [hstranded.not_name _ (mem_getLast?_append rfl front) _ hopening] at hnamed
      cases hnamed
  | key _ hahead hequals _ =>
      subst hahead
      exact hstranded.not_key _ rfl hequals
  | @value first last _ _ hown hlast _ =>
      subst hown
      have hmem : last ∈ (first ++ [last]).getLast? := by rw [List.getLast?_concat]; rfl
      obtain ⟨hequals, hcomma⟩ := hstranded.not_value _ (mem_getLast?_append hmem front)
      exact hlast.elim hequals hcomma

/-- The lexemes of a context map of the document go around a place. -/
def Document.HasMapAround (d : Document) (before : List Lexeme) (key : Lexeme)
    (rest : List Lexeme) : Prop :=
  ∃ decl own ahead, .map decl ∈ d.elements ∧ own <:+ before ∧ ahead <+: rest ∧
    decl.span = spanOf (own ++ key :: ahead) ∧
    (own.map Lexeme.token).head? = some (.name "ContextMap")

namespace Grammar

/-- A place in a document is in one of the elements, behind others that have
closed what they opened. -/
theorem exists_elementRead {stretches : List (List Lexeme)} {elements : List Element}
    (h : List.Forall₂ (fun stretch e => ∃ after, ElementRead after stretch e) stretches elements)
    {before rest : List Lexeme} {key : Lexeme}
    (hplace : stretches.flatten = before ++ key :: rest) :
    ∃ front own ahead back e after, before = front ++ own ∧ rest = ahead ++ back ∧
      Balanced (front.map Lexeme.token) ∧ e ∈ elements ∧
      ElementRead after (own ++ key :: ahead) e := by
  induction h generalizing before with
  | nil => simp at hplace
  | @cons stretch e stretches elements hread _ ih =>
      obtain ⟨after, hread⟩ := hread
      rw [List.flatten_cons] at hplace
      rcases append_eq_append_cons hplace with ⟨behind, rfl, hbehind⟩ | ⟨ahead, rfl, rfl⟩
      · obtain ⟨front, own, ahead, back, e', after', rfl, rfl, hfront, hmem, hread'⟩ := ih hbehind
        refine ⟨stretch ++ front, own, ahead, back, e', after', by simp, rfl, ?_,
          List.mem_cons_of_mem _ hmem, hread'⟩
        rw [List.map_append]
        exact hread.balanced.append hfront
      · exact ⟨[], before, ahead, stretches.flatten, e, after, rfl, rfl, .nil, List.mem_cons_self,
          hread⟩

end Grammar

namespace Document

/-- A keyword that is left over between braces can only be a matter of a context
map. -/
theorem hasMapAround {before rest : List Lexeme} {key : Lexeme} {text : String} {d : Document}
    (h : Document.ofLexemes (before ++ key :: rest) = .ok d) (hkey : key.token = .name text)
    (htext : text ∈ topLevelKeywords) (hopen : LeavesOpen before)
    (hstranded : Stranded text before rest) : d.HasMapAround before key rest := by
  obtain ⟨stretches, hflatten, hstretches⟩ := exists_stretches h
  obtain ⟨front, own, ahead, back, e, after, rfl, rfl, hfront, hmem, hread⟩ :=
    exists_elementRead hstretches hflatten
  have hown : LeavesOpen own := by
    rw [LeavesOpen, List.map_append, List.count_append, List.count_append, hfront.count_eq] at hopen
    exact Nat.lt_of_add_lt_add_left hopen
  by_cases hmap : ∃ decl, e = .map decl
  · obtain ⟨decl, rfl⟩ := hmap
    refine ⟨decl, own, ahead, hmem, List.suffix_append _ _, List.prefix_append _ _,
      hread.laidOut.span_eq, ?_⟩
    obtain ⟨ts, hts⟩ := hread.laidOut.opens
    cases own with
    | nil => exact absurd hown (Nat.lt_irrefl 0)
    | cons x own => exact congrArg some (List.cons.inj hts).1.symm
  · have hdeclaration : topLevelKeywords ⊆ declarationKeywords := by decide
    obtain ⟨outer, opening, inner, inside, closing, outside, used, later, entry, rfl, -, rfl, -, -,
      -, -, hused, hlater, -, hentry⟩ :=
      hread.keepsKeywords (not_exists.1 hmap) own key ahead text rfl hkey
        (hdeclaration htext) hown
    refine absurd hstranded (hentry.not_stranded htext ?_ ?_)
    · exact hused.trans ⟨front ++ (outer ++ [opening]), by simp⟩
    · exact hlater.trans ⟨closing :: outside ++ back, by simp⟩

/-- No keyword is skipped in a body, at any depth. So the keyword of an element
that has no place in one cannot be read there, and a body that is not closed does
not go on into the next element. Context maps are read by other rules. -/
theorem ofLexemes_keywords (lexemes : List Lexeme) :
    (∀ d, Document.ofLexemes lexemes = .ok d →
      ∃ stretches : List (List Lexeme), stretches.flatten = lexemes ∧
        List.Forall₂ (fun stretch e => e.span = spanOf stretch ∧
          ((∀ decl, e ≠ .map decl) → e.KeepsKeywords stretch)) stretches d.elements) ∧
      ∀ before key rest text, lexemes = before ++ key :: rest → key.token = .name text →
        text ∈ topLevelKeywords → LeavesOpen before → Stranded text before rest →
        (∃ failure, Document.ofLexemes lexemes = .error failure) ∨
          ∃ d, Document.ofLexemes lexemes = .ok d ∧ d.HasMapAround before key rest := by
  constructor
  · intro d hd
    obtain ⟨stretches, hflatten, hstretches⟩ := exists_stretches hd
    exact ⟨stretches, hflatten, hstretches.imp fun stretch e ⟨_, hread⟩ =>
      ⟨hread.laidOut.span_eq, hread.keepsKeywords⟩⟩
  · rintro before key rest text rfl hkey htext hopen hstranded
    cases hd : Document.ofLexemes (before ++ key :: rest) with
    | error failure => exact .inl ⟨failure, rfl⟩
    | ok d => exact .inr ⟨d, rfl, hasMapAround hd hkey htext hopen hstranded⟩

/-- A subdomain that has a keyword for its name, and a setting that has keywords
for its key and its values. -/
def keywordedSubdomain : Document :=
  ⟨[.domain ⟨"D",
    [.declaration (.subdomain "Entity" [])
      [.setting .subdomain ⟨"Domain", [.name "UseCase", .name "Event"], ⟨12, 21⟩⟩] ⟨6, 23⟩],
    ⟨0, 25⟩⟩]⟩

theorem keywordedSubdomain_keywords :
    let lexemes : List Lexeme := [⟨.name "Domain", 0, 1⟩, ⟨.name "D", 2, 3⟩, ⟨.openBrace, 4, 5⟩,
      ⟨.name "Subdomain", 6, 7⟩, ⟨.name "Entity", 8, 9⟩, ⟨.openBrace, 10, 11⟩,
      ⟨.name "Domain", 12, 13⟩, ⟨.equals, 14, 15⟩, ⟨.name "UseCase", 16, 17⟩, ⟨.comma, 18, 19⟩,
      ⟨.name "Event", 20, 21⟩, ⟨.closeBrace, 22, 23⟩, ⟨.closeBrace, 24, 25⟩]
    let before : List Lexeme := [⟨.name "Domain", 0, 1⟩, ⟨.name "D", 2, 3⟩, ⟨.openBrace, 4, 5⟩,
      ⟨.name "x", 6, 7⟩]
    let key : Lexeme := ⟨.name "Domain", 8, 9⟩
    let rest : List Lexeme := [⟨.name "E", 10, 11⟩]
    Document.ofLexemes lexemes = .ok keywordedSubdomain ∧
      (∃ stretches : List (List Lexeme), stretches.flatten = lexemes ∧
        List.Forall₂ (fun stretch e => e.span = spanOf stretch ∧
          ((∀ decl, e ≠ .map decl) → e.KeepsKeywords stretch))
          stretches keywordedSubdomain.elements) ∧
      "Domain" ∈ topLevelKeywords ∧ LeavesOpen before ∧ Stranded "Domain" before rest ∧
      ((∃ failure, Document.ofLexemes (before ++ key :: rest) = .error failure) ∨
        ∃ d, Document.ofLexemes (before ++ key :: rest) = .ok d ∧
          d.HasMapAround before key rest) := by
  intro lexemes before key rest
  have hread : Document.ofLexemes lexemes = .ok keywordedSubdomain := rfl
  have hkeyword : "Domain" ∈ topLevelKeywords := by decide
  have hopen : LeavesOpen before := by decide
  have hstranded : Stranded "Domain" before rest := by
    constructor
    case not_name =>
      rintro _ ⟨⟩ _ ⟨⟩
      rfl
    case not_key =>
      rintro _ ⟨⟩
      decide
    case not_value =>
      rintro _ ⟨⟩
      decide
  exact ⟨hread, (ofLexemes_keywords lexemes).1 _ hread, hkeyword, hopen, hstranded,
    (ofLexemes_keywords _).2 before key rest "Domain" rfl rfl hkeyword hopen hstranded⟩

end Document

end Landscape
