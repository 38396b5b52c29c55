import Landscape.Proofs.Grammar.Parts
import Mathlib.Data.List.Forall2

/-!
# No setting is lost

In a body a setting competes with headings, with the values of the setting
before it, and with tokens that are skipped. It is never the loser: wherever a
key, an equals sign and a value stand, there is an entry for them in the very
body whose braces they stand in (`Document.ofLexemes_settings`). What may not
come before the key is an equals sign or a comma, for then it is a value itself,
or a keyword, for then it is a name.

A derivation of the body is all that has to be looked at. A place in it that is
not in a deeper body lies in some piece, at its start or behind it
(`BodyRead.pieceAt`). The start of a setting is what is looked for. Behind the
start of a setting or of a heading no setting can start, and a token that is
skipped is not the start of one (`BodyRead.hasSetting`). A place in a deeper body
is led to the derivation of that body by the brace before it
(`BodyRead.bracedTail`).
-/

namespace Landscape

open Grammar

/-- A token that may come before a setting. -/
structure Token.AllowsSetting (t : Token) : Prop where
  ne_equals : t ≠ .equals
  ne_comma : t ≠ .comma
  not_keyword : isDeclarationKeyword t = false

/-! ## Places in a list -/

section

variable {α : Type} {first later before rest : List α} {x : α}

/-- A place in a concatenation is in its second part or in its first. -/
theorem append_eq_append_cons (h : first ++ later = before ++ x :: rest) :
    (∃ behind, before = first ++ behind ∧ later = behind ++ x :: rest) ∨
      ∃ ahead, first = before ++ x :: ahead ∧ rest = ahead ++ later := by
  rcases List.append_eq_append_iff.1 h with ⟨behind, hbefore, hlater⟩ | ⟨ahead, hfirst, hrest⟩
  · exact .inl ⟨behind, hbefore, hlater⟩
  · cases ahead with
    | nil => exact .inl ⟨[], by simpa using hfirst.symm, hrest.symm⟩
    | cons y ahead =>
        rw [List.cons_append, List.cons.injEq] at hrest
        obtain ⟨rfl, hrest⟩ := hrest
        exact .inr ⟨ahead, hfirst, hrest⟩

/-- It is in the second part if nothing like it is in the first. -/
theorem exists_of_append_eq {p : α → Prop} (h : first ++ later = before ++ x :: rest)
    (hfirst : ∀ y ∈ first, ¬p y) (hx : p x) :
    ∃ behind, before = first ++ behind ∧ later = behind ++ x :: rest := by
  rcases append_eq_append_cons h with hbehind | ⟨ahead, rfl, -⟩
  · exact hbehind
  · exact absurd hx (hfirst x (by simp))

/-- It is before the last element unless it is that one. -/
theorem exists_of_append_singleton_eq {last : α} (h : first ++ [last] = before ++ x :: rest)
    (hne : x ≠ last) : ∃ ahead, first = before ++ x :: ahead ∧ rest = ahead ++ [last] := by
  rcases append_eq_append_cons h with ⟨behind, -, hbehind⟩ | hahead
  · cases behind with
    | nil => exact absurd (List.cons.inj hbehind).1.symm hne
    | cons y behind => simp at hbehind
  · exact hahead

theorem mem_getLast?_append {behind : List α} (h : x ∈ behind.getLast?) (first : List α) :
    x ∈ (first ++ behind).getLast? := by
  rw [List.getLast?_append, Option.mem_def.1 h]
  rfl

end

namespace Balanced

variable {ts us : List Token}

theorem of_append (h : Balanced (ts ++ us)) (hts : Balanced ts) : Balanced us := by
  refine ⟨fun before hbefore => ?_, ?_⟩
  · have hcount := h.count_le _ ((List.prefix_append_right_inj ts).2 hbefore)
    rw [List.count_append, List.count_append, hts.count_eq] at hcount
    exact Nat.le_of_add_le_add_left hcount
  · have hcount := h.count_eq
    rw [List.count_append, List.count_append, hts.count_eq] at hcount
    exact Nat.add_left_cancel hcount

/-- The brace that closes them is too much for tokens that are balanced. -/
theorem not_append_closeBrace (h : Balanced ts) : ¬Balanced (ts ++ .closeBrace :: us) := by
  intro hall
  have hcount := hall.count_le (ts ++ [.closeBrace]) ⟨us, by simp⟩
  rw [List.count_append, List.count_append, h.count_eq] at hcount
  have hle : ts.count .openBrace + 1 ≤ ts.count .openBrace := hcount
  omega

/-- A brace that is opened is closed by no front of what it encloses. -/
theorem not_openBrace_cons (h : Balanced ts) (hus : us <+: ts) :
    ¬Balanced (.openBrace :: us) := by
  intro hall
  have hcount := hall.count_eq
  have hle := h.count_le us hus
  simp at hcount
  omega

end Balanced

namespace Grammar

variable {scope : Scope} {read after before rest : List Lexeme} {key : Lexeme} {name : String}
  {value : Value} {a : Attribute} {heading : Heading} {entries : List Entry}

/-! ## Lexemes without braces -/

theorem balanced_of_not_brace {xs : List Lexeme} (h : ∀ x ∈ xs, x.token.isBrace = false) :
    Balanced (xs.map Lexeme.token) :=
  .of_isBrace_eq_false (List.forall_mem_map.2 h)

theorem ne_openBrace {xs : List Lexeme} (h : ∀ x ∈ xs, x.token.isBrace = false) :
    ∀ x ∈ xs, ¬x.token = .openBrace := by
  intro x hx hbrace
  have hfalse := h x hx
  rw [hbrace] at hfalse
  cases hfalse

/-! ## Where a setting starts -/

theorem settingStart?_append {xs : List Lexeme} (h : settingStart? xs = some (name, value))
    (ys : List Lexeme) : settingStart? (xs ++ ys) = some (name, value) := by
  unfold settingStart? at h
  split at h
  · exact h
  · cases h

theorem settingAhead_of_settingStart? {xs : List Lexeme}
    (h : settingStart? xs = some (name, value)) : settingAhead xs := by
  unfold settingStart? at h
  split at h
  · rfl
  · cases h

theorem exists_name_of_settingStart? (h : settingStart? (key :: rest) = some (name, value)) :
    key.token = .name name ∧ ∃ equals later, rest = equals :: later ∧ equals.token = .equals := by
  unfold settingStart? at h
  split at h
  · next heq =>
      obtain ⟨rfl, rfl⟩ := List.cons.inj heq
      obtain ⟨value', -, hpair⟩ := Option.map_eq_some_iff.1 h
      cases hpair
      exact ⟨rfl, _, _, rfl, rfl⟩
  · cases h

/-! ## Pieces of a body -/

/-- A setting starts where it is read from. -/
theorem SettingRead.settingStart?_eq (h : SettingRead read a) (rest : List Lexeme) :
    ∃ value, settingStart? (read ++ rest) = some (a.key, value) ∧ a.values.head? = some value := by
  obtain ⟨t, value, hvalue, hhead, hopens⟩ := h.opens
  refine ⟨value, ?_, hhead⟩
  match read, hopens with
  | ⟨_, _⟩ :: ⟨_, _⟩ :: ⟨_, _⟩ :: later, hopens =>
      simp only [List.map_cons, List.cons_prefix_cons, List.nil_prefix, and_true] at hopens
      obtain ⟨rfl, rfl, rfl⟩ := hopens
      simp [settingStart?, hvalue]

/-- What stands between commas comes after one, unless it is the first. -/
theorem eq_nil_or_comma {ts before after : List Token} {t : Token}
    (h : commaSeparated ts = before ++ t :: after) (ht : t ≠ .comma) :
    before = [] ∨ before.getLast? = some .comma := by
  induction ts generalizing before with
  | nil => simp [commaSeparated] at h
  | cons u ts ih =>
      rcases before with _ | ⟨v, _ | ⟨w, before⟩⟩
      · exact .inl rfl
      · cases ts with
        | nil => simp [commaSeparated] at h
        | cons w ts =>
            rw [commaSeparated_cons u (List.cons_ne_nil w ts)] at h
            exact absurd (List.cons.inj (List.cons.inj h).2).1.symm ht
      · cases ts with
        | nil => simp [commaSeparated] at h
        | cons x ts =>
            rw [commaSeparated_cons u (List.cons_ne_nil x ts)] at h
            obtain ⟨-, hw, hrest⟩ : u = v ∧ Token.comma = w ∧ _ = before ++ t :: after := by
              simpa using h
            subst hw
            rcases ih hrest with rfl | hlast
            · exact .inr rfl
            · exact .inr (mem_getLast?_append hlast [v, .comma])

/-- In a setting no other one starts. -/
theorem SettingRead.eq_nil (h : SettingRead (before ++ key :: rest) a)
    (hkey : key.token = .name name) (hlast : ∀ last ∈ before.getLast?, last.token.AllowsSetting) :
    before = [] := by
  obtain ⟨ts, hts, -⟩ := h.exists_tokens
  match before with
  | [] => rfl
  | [x] =>
      rw [List.map_append, List.map_cons, List.map_cons, hkey] at hts
      cases (List.cons.inj (List.cons.inj hts).2).1
  | x :: y :: before =>
      simp only [List.cons_append, List.map_cons, List.map_append] at hts
      obtain ⟨-, hy, hrest⟩ : _ ∧ y.token = .equals ∧ _ = commaSeparated ts := by simpa using hts
      rcases eq_nil_or_comma hrest.symm (by rw [hkey]; nofun) with hnil | hcomma
      · obtain rfl := List.map_eq_nil_iff.1 hnil
        exact absurd hy (hlast y rfl).ne_equals
      · rw [List.getLast?_map, Option.map_eq_some_iff] at hcomma
        obtain ⟨last, hmem, hcomma⟩ := hcomma
        exact absurd hcomma (hlast last (mem_getLast?_append hmem [x, y])).ne_comma

theorem Words.not_settingAhead (h : Words after (before ++ key :: rest)) :
    ¬settingAhead (key :: (rest ++ after)) := by
  induction before with
  | nil =>
      cases h with
      | cons _ hno _ => exact hno
  | cons x before ih =>
      cases h with
      | cons _ _ hmore => exact ih hmore

/-- In a heading no setting starts. -/
theorem HeadRead.settingStart?_ne (h : HeadRead after (before ++ key :: rest) heading)
    (hlast : ∀ last ∈ before.getLast?, last.token.AllowsSetting) :
    settingStart? (key :: (rest ++ after)) ≠ some (name, value) := by
  intro hstart
  generalize hread : before ++ key :: rest = read at h
  cases h with
  | @named opening word words keyword text heading hopening hword hnamed hwords =>
      match before with
      | [] =>
          obtain ⟨rfl, rfl⟩ := List.cons.inj hread
          obtain ⟨-, equals, later, heq, hequals⟩ := exists_name_of_settingStart? hstart
          obtain ⟨rfl, -⟩ := List.cons.inj heq
          rw [hword] at hequals
          cases hequals
      | [x] =>
          obtain ⟨rfl, -⟩ := List.cons.inj hread
          have hkeyword := (hlast x rfl).not_keyword
          rw [hopening] at hkeyword
          simp [isDeclarationKeyword, isOneOf, Heading.mem_declarationKeywords hnamed] at hkeyword
      | x :: y :: before =>
          obtain ⟨-, hread⟩ := List.cons.inj hread
          obtain ⟨-, rfl⟩ := List.cons.inj hread
          exact hwords.not_settingAhead (settingAhead_of_settingStart? hstart)
  | unknown _ hwords =>
      rw [← hread] at hwords
      exact hwords.not_settingAhead (settingAhead_of_settingStart? hstart)

theorem HeadRead.not_brace (h : HeadRead after read heading) :
    ∀ x ∈ read, x.token.isBrace = false := by
  cases h with
  | named hopening hname _ hwords =>
      simp only [List.forall_mem_cons, hopening, hname]
      exact ⟨rfl, rfl, hwords.not_brace⟩
  | unknown _ hwords => exact hwords.not_brace

/-! ## Bodies -/

theorem BodyRead.balanced (h : BodyRead scope read after entries) :
    Balanced (read.map Lexeme.token) := by
  induction h with
  | done => exact .nil
  | stray hx _ _ _ ih =>
      have hone : Balanced [_] := .of_isBrace_eq_false (List.forall_mem_singleton.2 hx)
      exact hone.append ih
  | setting hsetting _ ih =>
      rw [List.map_append]
      exact (balanced_of_not_brace hsetting.not_brace).append ih
  | bodiless hhead _ ih =>
      rw [List.map_append]
      exact (balanced_of_not_brace hhead.not_brace).append ih
  | declaration hhead hopening hclosing _ _ ihinner ih =>
      have hblock := (balanced_of_not_brace hhead.not_brace).append (ihinner.inBraces.append ih)
      simpa [inBraces, hopening, hclosing] using hblock

/-- A place between braces is not reached without opening one. -/
theorem BodyRead.not_balanced {inside behind ahead : List Lexeme} {opening closing : Lexeme}
    (h : BodyRead scope inside after entries) (hopening : opening.token = .openBrace)
    (hclosing : closing.token = .closeBrace) (hkey : key.token = .name name)
    (hplace : opening :: (inside ++ [closing]) = behind ++ key :: ahead) :
    ¬Balanced (behind.map Lexeme.token) := by
  cases behind with
  | nil =>
      obtain ⟨rfl, -⟩ := List.cons.inj hplace
      rw [hkey] at hopening
      cases hopening
  | cons x behind =>
      obtain ⟨rfl, hinside⟩ := List.cons.inj hplace
      have hne : key ≠ closing := by
        rintro rfl
        rw [hkey] at hclosing
        cases hclosing
      have hfront : behind <+: inside := by
        obtain ⟨mid, rfl, -⟩ := exists_of_append_singleton_eq hinside hne
        exact List.prefix_append _ _
      rw [List.map_cons, hopening]
      exact h.balanced.not_openBrace_cons (hfront.map Lexeme.token)

/-- What stands at a place in a body that is in no deeper body: a token that is
skipped, or a part of a setting or of the heading of a declaration. What these
have in front of the place and behind it are lexemes in a row. -/
inductive PieceAt (scope : Scope) (after : List Lexeme) (entries : List Entry)
    (before : List Lexeme) (key : Lexeme) (rest : List Lexeme) : Prop
  | stray (not_keyword : isDeclarationKeyword key.token = false)
      (noSetting : settingStart? (key :: (rest ++ after)) = none)
  | setting {own ahead later : List Lexeme} {a : Attribute} (suffix : own <:+ before)
      (rest_eq : rest = ahead ++ later) (reads : SettingRead (own ++ key :: ahead) a)
      (mem : .setting scope a ∈ entries)
  | heading {own ahead block later : List Lexeme} {heading : Heading} {body : List Entry}
      (suffix : own <:+ before) (rest_eq : rest = ahead ++ (block ++ later))
      (reads : HeadRead (block ++ (later ++ after)) (own ++ key :: ahead) heading)
      (mem : .declaration heading body (spanOf (own ++ key :: (ahead ++ block))) ∈ entries)

/-- Behind a piece of a body the place is looked for in what comes after it. -/
theorem PieceAt.later {others : List Entry} {behind : List Lexeme}
    (h : PieceAt scope after others behind key rest) (first : List Lexeme)
    (hsub : others ⊆ entries) : PieceAt scope after entries (first ++ behind) key rest := by
  have longer {own : List Lexeme} (hown : own <:+ behind) : own <:+ first ++ behind :=
    hown.trans (List.suffix_append first behind)
  cases h with
  | stray hkeyword hno => exact .stray hkeyword hno
  | setting hsuffix hrest hreads hmem => exact .setting (longer hsuffix) hrest hreads (hsub hmem)
  | heading hsuffix hrest hreads hmem => exact .heading (longer hsuffix) hrest hreads (hsub hmem)

/-- Every place that is in no deeper body is in a piece of this one. -/
theorem BodyRead.pieceAt (h : BodyRead scope read after entries)
    (hread : read = before ++ key :: rest) (hbefore : Balanced (before.map Lexeme.token))
    (hkey : key.token = .name name) : PieceAt scope after entries before key rest := by
  have of_append {first behind : List Lexeme} (hall : Balanced ((first ++ behind).map Lexeme.token))
      (hfirst : Balanced (first.map Lexeme.token)) : Balanced (behind.map Lexeme.token) := by
    rw [List.map_append] at hall
    exact hall.of_append hfirst
  induction h generalizing before rest with
  | done => simp at hread
  | @stray x read after entries hx hkeyword hno _ ih =>
      cases before with
      | nil =>
          obtain ⟨rfl, rfl⟩ := List.cons.inj hread
          exact .stray hkeyword hno
      | cons y before =>
          obtain ⟨rfl, hrest⟩ := List.cons.inj hread
          have hone : Balanced ([x].map Lexeme.token) :=
            balanced_of_not_brace (List.forall_mem_singleton.2 hx)
          exact (ih hrest (of_append hbefore hone)).later [x] fun _ => id
  | @setting first read after a entries hsetting _ ih =>
      rcases append_eq_append_cons hread with ⟨behind, rfl, hrest⟩ | ⟨ahead, rfl, rfl⟩
      · have hbehind := of_append hbefore (balanced_of_not_brace hsetting.not_brace)
        exact (ih hrest hbehind).later first (List.subset_cons_self _ _)
      · exact .setting (List.suffix_refl before) rfl hsetting List.mem_cons_self
  | @bodiless head read after heading entries hhead _ ih =>
      rcases append_eq_append_cons hread with ⟨behind, rfl, hrest⟩ | ⟨ahead, rfl, rfl⟩
      · have hbehind := of_append hbefore (balanced_of_not_brace hhead.not_brace)
        exact (ih hrest hbehind).later head (List.subset_cons_self _ _)
      · have hmem : .declaration heading [] (spanOf (before ++ key :: (ahead ++ []))) ∈
            Entry.declaration heading [] (spanOf (before ++ key :: ahead)) :: entries := by simp
        exact .heading (List.suffix_refl before) rfl hhead hmem
  | @declaration head inside read after opening closing heading body entries hhead hopening
      hclosing hinner _ _ ih =>
      rcases append_eq_append_cons hread with ⟨behind, rfl, hrest⟩ | ⟨ahead, rfl, rfl⟩
      · have hbehind := of_append hbefore (balanced_of_not_brace hhead.not_brace)
        have hblock : opening :: (inside ++ [closing]) ++ read = behind ++ key :: rest := by
          simpa using hrest
        rcases append_eq_append_cons hblock with ⟨behind', rfl, hlater⟩ | ⟨ahead, hplace, rfl⟩
        · have hbraces : Balanced ((opening :: (inside ++ [closing])).map Lexeme.token) := by
            simpa [inBraces, hopening, hclosing] using hinner.balanced.inBraces
          exact ((ih hlater (of_append hbehind hbraces)).later _
            (List.subset_cons_self _ _)).later head fun _ => id
        · exact absurd hbehind (hinner.not_balanced hopening hclosing hkey hplace)
      · have hreads : HeadRead (opening :: (inside ++ [closing]) ++ (read ++ after))
            (before ++ key :: ahead) heading := by simpa using hhead
        have hsame : before ++ key :: ahead ++ opening :: (inside ++ [closing]) =
            before ++ key :: (ahead ++ opening :: (inside ++ [closing])) := by simp
        rw [hsame]
        exact .heading (List.suffix_refl before) (by simp) hreads List.mem_cons_self

/-- One of the entries is the setting that starts with a key and a value. -/
structure HasSetting (scope : Scope) (entries : List Entry) (key : Lexeme) (name : String)
    (value : Value) : Prop where
  exists_setting : ∃ a, .setting scope a ∈ entries ∧ a.key = name ∧
    a.values.head? = some value ∧ a.span.start = key.span.start

/-- A place that is not in a deeper body, and where a setting starts, is the
start of an entry. -/
theorem BodyRead.hasSetting (h : BodyRead scope read after entries)
    (hread : read = before ++ key :: rest) (hbefore : Balanced (before.map Lexeme.token))
    (hlast : ∀ last ∈ before.getLast?, last.token.AllowsSetting)
    (hstart : settingStart? (key :: (rest ++ after)) = some (name, value)) :
    HasSetting scope entries key name value := by
  have hkey := (exists_name_of_settingStart? hstart).1
  have allows {own : List Lexeme} (hown : own <:+ before) :
      ∀ last ∈ own.getLast?, last.token.AllowsSetting := by
    obtain ⟨front, rfl⟩ := hown
    exact fun last hmem => hlast last (mem_getLast?_append hmem front)
  cases h.pieceAt hread hbefore hkey with
  | stray _ hno =>
      rw [hno] at hstart
      cases hstart
  | @setting own ahead later a hown hrest hreads hmem =>
      obtain rfl := hreads.eq_nil hkey (allows hown)
      obtain ⟨value', hstart', hvalue⟩ := hreads.settingStart?_eq (later ++ after)
      have hsame : settingStart? (key :: (rest ++ after)) = some (a.key, value') := by
        rw [hrest, List.append_assoc]
        exact hstart'
      rw [hsame] at hstart
      cases hstart
      have hspan : a.span.start = key.span.start := by rw [hreads.span_eq]; rfl
      exact ⟨a, hmem, rfl, hvalue, hspan⟩
  | heading hown hrest hreads _ =>
      rw [hrest, List.append_assoc, List.append_assoc] at hstart
      exact absurd hstart (hreads.settingStart?_ne (allows hown))

/-- The tail of a body, from behind a brace that is opened there, is what the
brace encloses and what comes behind the brace that closes it. -/
structure BracedTail (scope : Scope) (after : List Lexeme) (declarations : List Entry)
    (front : List Lexeme) (opening : Lexeme) (tail : List Lexeme) : Prop where
  exists_eq : ∃ head inside closing back heading body, head ≠ [] ∧ head <:+ front ∧
    tail = inside ++ closing :: back ∧ closing.token = .closeBrace ∧
    BodyRead scope inside (closing :: (back ++ after)) body ∧
    .declaration heading body (spanOf (head ++ opening :: (inside ++ [closing]))) ∈ declarations

theorem BracedTail.imp {declarations declarations' : List Entry} {front front' tail : List Lexeme}
    {opening : Lexeme} (h : BracedTail scope after declarations front opening tail)
    (hfront : front <:+ front') (hdeclarations : declarations ⊆ declarations') :
    BracedTail scope after declarations' front' opening tail := by
  obtain ⟨head, inside, closing, back, heading, body, hne, hhead, htail, hclosing, hinside, hmem⟩ :=
    h.exists_eq
  exact ⟨head, inside, closing, back, heading, body, hne, hhead.trans hfront, htail, hclosing,
    hinside, hdeclarations hmem⟩

/-- Every brace that is opened in a body opens the body of a declaration. -/
theorem BodyRead.bracedTail (h : BodyRead scope read after entries) {front tail : List Lexeme}
    {opening : Lexeme} (hread : read = front ++ opening :: tail)
    (hopening : opening.token = .openBrace) :
    BracedTail scope after (declarationsOf entries) front opening tail := by
  have later (e : Entry) (entries : List Entry) :
      declarationsOf entries ⊆ declarationsOf (e :: entries) :=
    fun _ => List.mem_append_right _
  induction h generalizing front tail with
  | done => simp at hread
  | @stray x read after entries hx _ _ _ ih =>
      have hone := ne_openBrace (List.forall_mem_singleton.2 hx)
      obtain ⟨behind, rfl, hrest⟩ := exists_of_append_eq hread hone hopening
      exact (ih hrest).imp (List.suffix_append _ _) fun _ => id
  | @setting first read after a entries hsetting _ ih =>
      have hclosed := ne_openBrace hsetting.not_brace
      obtain ⟨behind, rfl, hrest⟩ := exists_of_append_eq hread hclosed hopening
      exact (ih hrest).imp (List.suffix_append _ _) (later _ _)
  | @bodiless head read after heading entries hhead _ ih =>
      have hclosed := ne_openBrace hhead.not_brace
      obtain ⟨behind, rfl, hrest⟩ := exists_of_append_eq hread hclosed hopening
      exact (ih hrest).imp (List.suffix_append _ _) (later _ _)
  | @declaration head inside read after opening' closing heading body entries hhead hopening'
      hclosing hinner _ ihinner ih =>
      have hclosed := ne_openBrace hhead.not_brace
      obtain ⟨behind, rfl, hrest⟩ := exists_of_append_eq hread hclosed hopening
      cases behind with
      | nil =>
          obtain ⟨rfl, rfl⟩ := List.cons.inj hrest
          refine ⟨head, inside, closing, read, heading, body, hhead.ne_nil, ?_, rfl, hclosing,
            hinner, List.mem_cons_self⟩
          simp
      | cons y behind =>
          obtain ⟨rfl, hplace⟩ := List.cons.inj hrest
          rcases append_eq_append_cons hplace with ⟨more, rfl, hmore⟩ | ⟨ahead, rfl, rfl⟩
          · cases more with
            | nil =>
                obtain ⟨rfl, -⟩ := List.cons.inj hmore
                rw [hopening] at hclosing
                cases hclosing
            | cons z more =>
                obtain ⟨rfl, hlater⟩ := List.cons.inj hmore
                refine (ih hlater).imp ?_ (later _ _)
                exact ⟨head ++ opening' :: (inside ++ [closing]), by simp⟩
          · -- The brace is one level deeper, and so is the declaration.
            obtain ⟨head', inside', closing', back, heading', body', hne, hhead', rfl, hclosing',
              hinside', hmem⟩ := (ihinner rfl).exists_eq
            refine ⟨head', inside', closing', back ++ closing :: read, heading', body', hne, ?_,
              by simp, hclosing', by simpa using hinside', ?_⟩
            · exact hhead'.trans ⟨head ++ [opening'], by simp⟩
            · exact List.mem_append_left _
                (List.mem_cons_of_mem _ (List.mem_append_left _ hmem))

end Grammar

/-! ## Elements -/

namespace Element

/-- An entry of an element's own body, in the form in which the element has it. -/
def Holds (entry : Entry) : Element → Prop
  | useCase decl => UseCasePart.ofEntry entry ∈ decl.parts
  | e => entry ∈ e.body

/-- Braces enclose the own body of an element, or that of a declaration in it,
and the body holds an entry. Whose braces they are is told from the lexemes in
front of them and from the span. -/
inductive HoldsBetween (e : Element) (front : List Lexeme) (opening : Lexeme)
    (inside : List Lexeme) (closing : Lexeme) (back : List Lexeme) (entry : Entry) : Prop
  | own (not_brace : ∀ x ∈ front, x.token.isBrace = false) (back_eq : back = [])
      (holds : e.Holds entry)
  | nested {head : List Lexeme} {heading : Heading} {body : List Entry} (ne_nil : head ≠ [])
      (suffix : head <:+ front)
      (declared : .declaration heading body (spanOf (head ++ opening :: (inside ++ [closing]))) ∈
        declarationsOf e.body)
      (holds : entry ∈ body)

/-- Whatever setting starts between braces, in a stretch of lexemes, is an entry
of the body that the innermost of these braces enclose. -/
def KeepsSettings (e : Element) (stretch : List Lexeme) : Prop :=
  ∀ front opening before key rest name value,
    stretch = front ++ opening :: (before ++ key :: rest) →
    opening.token = .openBrace → Balanced (before.map Lexeme.token) →
    settingStart? (key :: rest) = some (name, value) →
    (∀ last ∈ before.getLast?, last.token.AllowsSetting) →
    ∃ inside closing back a,
      before ++ key :: rest = inside ++ closing :: back ∧ closing.token = .closeBrace ∧
      Balanced (inside.map Lexeme.token) ∧
      a.key = name ∧ a.values.head? = some value ∧ a.span.start = key.span.start ∧
      e.HoldsBetween front opening inside closing back (.setting e.scope a)

/-- What a use case does not keep as an entry is no declaration. -/
theorem declarationsOf_ofEntry (entries : List Entry) :
    declarationsOf ((entries.map UseCasePart.ofEntry).filterMap UseCasePart.entry?) =
      declarationsOf entries := by
  induction entries with
  | nil => rfl
  | cons entry rest ih =>
      have hown : UseCasePart.entry? (UseCasePart.ofEntry entry) = some entry ∨
          UseCasePart.entry? (UseCasePart.ofEntry entry) = none ∧ entry.declarations = [] := by
        unfold UseCasePart.ofEntry
        split
        · split <;> first | exact .inl rfl | exact .inr ⟨rfl, rfl⟩
        · exact .inl rfl
      rw [List.map_cons, List.filterMap_cons, declarationsOf]
      rcases hown with hown | ⟨hown, hnone⟩
      · rw [hown, declarationsOf, ih]
      · rw [hown, hnone, ih, List.nil_append]

theorem HasEntries.declarationsOf_eq {e : Element} {entries : List Entry}
    (h : e.HasEntries entries) : declarationsOf e.body = declarationsOf entries := by
  cases e with
  | domain decl => exact congrArg declarationsOf h
  | context decl => exact congrArg declarationsOf h
  | map decl => exact h.elim
  | useCase decl =>
      have hparts : decl.parts = entries.map UseCasePart.ofEntry := h
      rw [body, hparts]
      exact declarationsOf_ofEntry entries
  | unknown decl => exact congrArg declarationsOf h

theorem HasEntries.holds {e : Element} {entries : List Entry} (h : e.HasEntries entries)
    {entry : Entry} (hmem : entry ∈ entries) : e.Holds entry := by
  cases e with
  | domain decl =>
      obtain rfl : decl.body = entries := h
      exact hmem
  | context decl =>
      obtain rfl : decl.body = entries := h
      exact hmem
  | map decl => exact h.elim
  | useCase decl =>
      have hparts : decl.parts = entries.map UseCasePart.ofEntry := h
      show _ ∈ decl.parts
      rw [hparts]
      exact List.mem_map_of_mem hmem
  | unknown decl =>
      obtain rfl : decl.body.getD [] = entries := h
      exact hmem

end Element

namespace Grammar

variable {scope : Scope} {after before rest : List Lexeme} {key : Lexeme} {name : String}
  {value : Value}

/-- A place that is reached with balanced braces is inside of the brace that is
still open. -/
theorem exists_of_enclosed {inside back : List Lexeme} {closing : Lexeme}
    (hinside : Balanced (inside.map Lexeme.token)) (hclosing : closing.token = .closeBrace)
    (hbefore : Balanced (before.map Lexeme.token)) (hkey : key.token = .name name)
    (hplace : before ++ key :: rest = inside ++ closing :: back) :
    ∃ ahead, inside = before ++ key :: ahead ∧ rest = ahead ++ closing :: back := by
  rcases append_eq_append_cons hplace.symm with ⟨behind, rfl, hbehind⟩ | hahead
  · cases behind with
    | nil =>
        obtain ⟨rfl, -⟩ := List.cons.inj hbehind
        rw [hkey] at hclosing
        cases hclosing
    | cons x behind =>
        obtain ⟨rfl, -⟩ := List.cons.inj hbehind
        rw [List.map_append, List.map_cons, hclosing] at hbefore
        exact absurd hbefore hinside.not_append_closeBrace
  · exact hahead

/-- The body that a place is in, with the brace that opened it and the one that
closes it. -/
structure EnclosedBy (e : Element) (after front : List Lexeme) (opening : Lexeme)
    (before : List Lexeme) (key : Lexeme) (rest : List Lexeme) : Prop where
  exists_eq : ∃ ahead closing back entries, rest = ahead ++ closing :: back ∧
    closing.token = .closeBrace ∧
    BodyRead e.scope (before ++ key :: ahead) (closing :: (back ++ after)) entries ∧
    ∀ entry ∈ entries,
      e.HoldsBetween front opening (before ++ key :: ahead) closing back entry

/-- A place behind a brace that is still open is in the body that it opens. -/
theorem ElementRead.enclosedBy {stretch front : List Lexeme} {e : Element} {opening : Lexeme}
    (h : ElementRead after stretch e) (hmap : ∀ decl, e ≠ .map decl)
    (hstretch : stretch = front ++ opening :: (before ++ key :: rest))
    (hopening : opening.token = .openBrace) (hbefore : Balanced (before.map Lexeme.token))
    (hkey : key.token = .name name) : EnclosedBy e after front opening before key rest := by
  obtain ⟨decl, rfl, -⟩ | ⟨head, part, entries, rfl, hhead, hpart, hentries⟩ := h.exists_eq
  · exact absurd rfl (hmap decl)
  obtain ⟨behind, rfl, hplace⟩ := exists_of_append_eq hstretch (ne_openBrace hhead) hopening
  cases hpart with
  | none => simp at hplace
  | @some _ body hbraced =>
      obtain @⟨inside, opening', closing, _, -, hclosing, hinside⟩ := hbraced
      cases behind with
      | nil =>
          obtain ⟨rfl, hown⟩ := List.cons.inj hplace
          obtain ⟨ahead, rfl, rfl⟩ :=
            exists_of_enclosed hinside.balanced hclosing hbefore hkey hown.symm
          refine ⟨ahead, closing, [], _, rfl, hclosing, hinside, fun entry hmem =>
            .own ?_ rfl (hentries.holds hmem)⟩
          rwa [List.append_nil]
      | cons y behind =>
          obtain ⟨rfl, hdeeper⟩ := List.cons.inj hplace
          have hne : opening ≠ closing := by
            rintro rfl
            rw [hopening] at hclosing
            cases hclosing
          obtain ⟨tail, rfl, htail⟩ := exists_of_append_singleton_eq hdeeper hne
          obtain ⟨head', inside', closing', back, heading, body', hne, hhead', rfl, hclosing',
            hinside', hmem⟩ := (hinside.bracedTail rfl hopening).exists_eq
          have hplace' : before ++ key :: rest = inside' ++ closing' :: (back ++ [closing]) := by
            simpa using htail
          obtain ⟨ahead, rfl, rfl⟩ :=
            exists_of_enclosed hinside'.balanced hclosing' hbefore hkey hplace'
          refine ⟨ahead, closing', back ++ [closing], body', rfl, hclosing',
            by simpa using hinside', fun entry hmem' =>
              .nested hne ?_ (hentries.declarationsOf_eq ▸ hmem) hmem'⟩
          exact hhead'.trans ⟨head ++ [opening'], by simp⟩

theorem ElementRead.keepsSettings {stretch : List Lexeme} {e : Element}
    (h : ElementRead after stretch e) (hmap : ∀ decl, e ≠ .map decl) :
    e.KeepsSettings stretch := by
  intro front opening before key rest name value hstretch hopening hbefore hstart hlast
  have hkey := (exists_name_of_settingStart? hstart).1
  obtain ⟨ahead, closing, back, entries, rfl, hclosing, hinside, hholds⟩ :=
    (h.enclosedBy hmap hstretch hopening hbefore hkey).exists_eq
  have hextended := settingStart?_append hstart after
  obtain ⟨a, hmem, hname, hvalue, hspan⟩ :=
    (hinside.hasSetting rfl hbefore hlast (by simpa using hextended)).exists_setting
  exact ⟨before ++ key :: ahead, closing, back, a, by simp, hclosing, hinside.balanced, hname,
    hvalue, hspan, hholds _ hmem⟩

end Grammar

/-- In the elements of a document no setting is lost, at any depth. Context maps
have settings of another kind. -/
theorem Document.ofLexemes_settings {lexemes : List Lexeme} {d : Document}
    (h : Document.ofLexemes lexemes = .ok d) :
    ∃ stretches : List (List Lexeme), stretches.flatten = lexemes ∧
      List.Forall₂ (fun stretch e => e.span = spanOf stretch ∧
        ((∀ decl, e ≠ .map decl) → e.KeepsSettings stretch)) stretches d.elements := by
  obtain ⟨stretches, hflatten, hstretches⟩ := exists_stretches h
  exact ⟨stretches, hflatten, hstretches.imp fun stretch e ⟨_, hread⟩ =>
    ⟨hread.laidOut.span_eq, hread.keepsSettings⟩⟩

/-- A use case with a setting right behind a declaration that has no body, and
one in a block. -/
def headedUseCase : Document :=
  ⟨[.useCase ⟨"U",
    [.other (.declaration (.object .entity "E") [] ⟨6, 11⟩), .scope "A",
      .other (.declaration (.unknown "x" [])
        [.setting .plain ⟨"y", [.number "1"], ⟨22, 27⟩⟩] ⟨18, 29⟩)], ⟨0, 31⟩⟩]⟩

theorem headedUseCase_settings :
    let lexemes : List Lexeme := [⟨.name "UseCase", 0, 1⟩, ⟨.name "U", 2, 3⟩, ⟨.openBrace, 4, 5⟩,
      ⟨.name "Entity", 6, 7⟩, ⟨.name "E", 8, 9⟩, ⟨.name "k", 10, 11⟩, ⟨.name "scope", 12, 13⟩,
      ⟨.equals, 14, 15⟩, ⟨.name "A", 16, 17⟩, ⟨.name "x", 18, 19⟩, ⟨.openBrace, 20, 21⟩,
      ⟨.name "y", 22, 23⟩, ⟨.equals, 24, 25⟩, ⟨.number "1", 26, 27⟩, ⟨.closeBrace, 28, 29⟩,
      ⟨.closeBrace, 30, 31⟩]
    Document.ofLexemes lexemes = .ok headedUseCase ∧
      ∃ stretches : List (List Lexeme), stretches.flatten = lexemes ∧
        List.Forall₂ (fun stretch e => e.span = spanOf stretch ∧
          ((∀ decl, e ≠ .map decl) → e.KeepsSettings stretch))
          stretches headedUseCase.elements := by
  intro lexemes
  have hread : Document.ofLexemes lexemes = .ok headedUseCase := rfl
  exact ⟨hread, Document.ofLexemes_settings hread⟩

end Landscape
