import Landscape.Proofs.Document.Unplaced
import Landscape.Proofs.Document.Writing
import Landscape.Proofs.Grammar.Reads

/-!
# Names, values and the phrases made of them

A list with commas goes on as long as there is a comma, and a list of roles is
looked for wherever a bracket opens. So these are read back whatever comes
after them, except for a comma here and a bracket there.
-/

namespace Landscape.Grammar

variable {α γ ι : Type} {ts after : List Token}

/-! ## Names and values -/

theorem Reads.name {text : String} : Reads name [.name text] after fun v => v = text :=
  token rfl rfl

theorem Refuses.name (h : ∀ text, ts.head? ≠ some (.name text)) : Refuses name ts := by
  refine token fun t ht => ?_
  cases t with
  | name text => exact absurd ht (h text)
  | _ => rfl

theorem Reads.value {v : Value} : Reads value [v.token] after fun v' => v' = v := by
  cases v <;> exact token rfl rfl

theorem Reads.reference {r : Reference} :
    Reads reference [.name r.name] after fun v => v.unplaced = r.unplaced :=
  located (token_bind rfl (pure fun _ => rfl))

/-! ## Lists with commas -/

theorem Reads.separated {p : Parser α} {t : ι → Token} {u : α → γ} {w : ι → γ}
    {items : List ι} (hne : items ≠ [])
    (hitem : ∀ i after, Reads p [t i] after fun v => u v = w i)
    (hafter : after.head? ≠ some .comma) :
    Reads (Parser.separated p) (commaSeparated (items.map t)) after
      fun vs => vs.map u = items.map w := by
  cases items with
  | nil => exact absurd rfl hne
  | cons first others =>
      rw [List.map_cons, commaSeparated, List.flatMap_map, ← List.singleton_append]
      refine bind (hitem first _) fun value hvalue => bind_pure ?_
      refine (many (u := u) (w := w) (by simp) ?_ ?_).imp fun values hvalues => ?_
      · exact fun i later _ => exactly_bind (hitem i _)
      · exact Refuses.bind (Refuses.exactly hafter)
      · rw [List.map_cons, List.map_cons, hvalue, hvalues]

theorem Reads.references {rs : List Reference} (hne : rs ≠ [])
    (hafter : after.head? ≠ some .comma) :
    Reads references (referenceTokens rs) after
      fun vs => vs.map Reference.unplaced = rs.map Reference.unplaced :=
  separated hne (fun _ _ => reference) hafter

theorem Refuses.references (h : ∀ text, ts.head? ≠ some (.name text)) :
    Refuses references ts :=
  bind (located (bind (name h)))

/-! ## Settings -/

theorem Reads.attributeSetting {a : Attribute} (ha : a.isWritable)
    (hafter : after.head? ≠ some .comma) :
    Reads attributeSetting a.tokens after fun v => v.unplaced = a.unplaced := by
  have hne : a.values ≠ [] := by
    intro h
    simp [Attribute.isWritable, h] at ha
  refine located (token_bind rfl (exactly_bind (bind_pure ?_)))
  refine (separated (u := id) (w := id) hne (fun _ _ => value) hafter).imp
    fun vs hvs span => ?_
  rw [List.map_id, List.map_id] at hvs
  rw [hvs]
  rfl

/-- A name without an equals sign behind it starts no setting. -/
theorem Refuses.attributeSetting {t : Token} (h : ts.head? ≠ some .equals) :
    Refuses attributeSetting (t :: ts) :=
  located (token_bind fun _ _ => bind (exactly h))

theorem Refuses.attributeSetting_of_head (h : ∀ text, ts.head? ≠ some (.name text)) :
    Refuses Grammar.attributeSetting ts :=
  located (bind (name h))

/-! ## Roles -/

theorem Refuses.roles (h : ts.head? ≠ some .openBracket) : Refuses roles ts :=
  bind (exactly h)

theorem Reads.optional_roles {rs : List String}
    (hafter : rs = [] → after.head? ≠ some .openBracket) :
    Reads (Parser.optional roles) (roleTokens rs) after fun v => v.getD [] = rs := by
  cases rs with
  | nil => exact optional_none (Refuses.roles (hafter rfl)) rfl
  | cons r rest =>
      refine optional_some (between ?_)
      refine (separated (u := id) (w := id) (by simp) (fun _ _ => name) (by simp)).imp
        fun vs hvs => ?_
      rwa [List.map_id, List.map_id] at hvs

end Landscape.Grammar
