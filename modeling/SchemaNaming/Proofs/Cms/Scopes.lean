import SchemaNaming.Proofs.Cms.AllOrNothing

/-!
# Documents and schemas alike

For a document the handler records an identifier under the content type of the block, and for a
schema under the name of the schema. Both calls read the block in the same way and then act on what
they have found (`Cms.Finding`), which is the same for both if the block has a content type. If it
has none, nothing is found for a document, and the name of a schema is put in. That is as if it
stood in the block already.

* `Cms.Finding` — what is found in a block, and what the handler does about it in a call;
* `Session.ActsOn` — a call does so, and nothing else;
* `Cms.found` — what is found for a schema, and `Cms.react_doc`, that the same is found for a
  document if it has a content type;
* `Metadata.ofBlock_withContentType` — a block with a content type put in is read as before,
  except for the content type;
* `Session.callShipped_alike` — the two calls compared.
-/

namespace SchemaNaming

/-! ### Blocks with a content type put in -/

namespace Metadata

/-- The block with its content type set to a text. -/
def withContentType (block : Entries) (contentType : String) : Entries :=
  block.set (.text "content_type") (.text contentType)

/-- **A content type that is put in** is read if it is trimmed, and the other fields stay. -/
theorem ofBlock_withContentType {block : Entries} {contentType old : String}
    (h_ne : contentType ≠ "") (h_trimmed : trimBlank contentType = contentType)
    (h_old : firstText block contentTypeKeys = .ok old) :
    ofBlock (withContentType block contentType)
      = (ofBlock block).map fun m => { m with contentType } := by
  have h_get : (withContentType block contentType).get? "content_type"
      = some (.text contentType) :=
    Entries.find?_set_self block "content_type" (.text contentType)
  have h_first : firstText (withContentType block contentType) ["content_type"]
      = .ok contentType := by
    rw [firstText_singleton h_get]
    exact congrArg Except.ok h_trimmed
  have h_type : firstText (withContentType block contentType) contentTypeKeys = .ok contentType :=
    firstText_append_of_ne h_first h_ne ["contentType", "contentTypeSlug", "slug"]
  have h_others : ∀ keys, "content_type" ∉ keys →
      firstText (withContentType block contentType) keys = firstText block keys := by
    intro keys h_keys
    refine firstText_congr fun k hk => Entries.find?_set_of_ne block ?_ (.text contentType)
    rintro rfl
    exact h_keys hk
  unfold ofBlock
  rw [h_type, h_old, h_others schemaKeys (by decide), h_others versionKeys (by decide)]
  cases firstText block schemaKeys with
  | error f => rfl
  | ok schema => cases firstText block versionKeys <;> rfl

section ForSchema

variable {m : Metadata}

/-- The name of a schema is put in only where there is no content type. -/
theorem forSchema_of_ne (h_ne : m.contentType ≠ "") (name : String) : m.forSchema name = m := by
  unfold forSchema
  rw [if_neg (mt String.isEmpty_iff.mp h_ne)]

theorem forSchema_of_eq_empty (h_empty : m.contentType = "") (name : String) :
    m.forSchema name = { m with contentType := name } := by
  unfold forSchema
  rw [if_pos (String.isEmpty_iff.mpr h_empty)]

end ForSchema

end Metadata

namespace Cms

/-! ### What is found in a block -/

/-- What the handler finds in a block. -/
inductive Finding where
  /-- A text of the block fails. -/
  | unreadable (fault : Fault)
  /-- There is no identifier. -/
  | unnamed
  | named (identifier : String)

namespace Finding

/-- What the handler does about it in a call of the given scope, recording under `name`. -/
def effects (scope : Scope) (name : String) : Finding → List Effect
  | unreadable f => [.fail f]
  | unnamed => []
  | named r =>
    .setName (.text name) (.text r) ::
      match scope with
      | .doc => []
      | .schema => [.setSchemaName (.text r)]

/-- The context afterwards. -/
def update (scope : Scope) (name : String) (c : Context) : Finding → Context
  | unreadable _ => c
  | unnamed => c
  | named r =>
    match scope with
    | .doc => c.record name r
    | .schema => { c.record name r with schemaName := .text r }

/-- The answer of the call. -/
def answer : Finding → Except Fault Answer
  | unreadable f => .error f
  | unnamed => .ok .done
  | named _ => .ok .done

/-- What was found shows in what the handler does. -/
theorem effects_injective (scope : Scope) (name : String) :
    Function.Injective (effects scope name) := by
  intro x y h_eq
  cases x with
  | unreadable f =>
    cases y with
    | unreadable g =>
      obtain ⟨h_fault, -⟩ := List.cons.inj h_eq
      exact congrArg unreadable (Effect.fail.inj h_fault)
    | unnamed => cases h_eq
    | named r => cases (List.cons.inj h_eq).1
  | unnamed =>
    cases y with
    | unnamed => rfl
    | _ => cases h_eq
  | named r =>
    cases y with
    | unreadable g => cases (List.cons.inj h_eq).1
    | unnamed => cases h_eq
    | named r' =>
      obtain ⟨h_name, -⟩ := List.cons.inj h_eq
      exact congrArg named (Value.text.inj (Effect.setName.inj h_name).2)

end Finding

/-- What is found in a call for the schema of the given name. -/
def found (name : String) (raw : Value) : Finding :=
  match readFault? raw with
  | some f => .unreadable f
  | none => (identifier? name raw).elim .unnamed .named

theorem react_schema (name : String) (raw : Value) (c : Context) :
    react (.schema (.text name) raw) (some c) = (found name raw).effects .schema name := by
  unfold react found
  dsimp only
  rw [schemaIdentifier_text]
  cases readFault? raw with
  | some f => rfl
  | none => cases identifier? name raw <;> rfl

section React

variable {raw : Value}

/-- With a content type the name of a schema does not count, and the identifier is the same. -/
theorem docIdentifier?_eq_identifier? {contentType : String} (h_ne : contentType ≠ "")
    (h_type : ∀ m, metadata? raw = some m → m.contentType = contentType) (name : String) :
    docIdentifier? raw = (identifier? name raw).map fun r => (contentType, r) := by
  unfold docIdentifier? identifier?
  cases hm : metadata? raw with
  | none => rfl
  | some m =>
    obtain rfl := h_type m hm
    have h_typed : m.contentType.isEmpty = false := by rwa [String.isEmpty_eq_false_iff]
    rw [Option.map_some, Option.map_some, Metadata.forSchema_of_ne h_ne, Option.filter_some,
      Option.filter_some]
    dsimp only
    rw [h_typed, Bool.false_or]
    cases m.identifier.isEmpty <;> rfl

/-- **A call for a document** that has a content type finds what one for a schema does. -/
theorem react_doc {contentType : String} (h_ne : contentType ≠ "")
    (h_type : ∀ m, metadata? raw = some m → m.contentType = contentType) (name : String)
    (c : Context) :
    react (.doc raw) (some c) = (found name raw).effects .doc contentType := by
  unfold react found
  dsimp only
  rw [docName_eq, docIdentifier?_eq_identifier? h_ne h_type name]
  cases readFault? raw with
  | some f => rfl
  | none => cases identifier? name raw <;> rfl

/-- A document without a content type has no identifier. -/
theorem docIdentifier?_of_no_contentType
    (h_type : ∀ m, metadata? raw = some m → m.contentType = "") : docIdentifier? raw = none := by
  refine Option.eq_none_iff_forall_ne_some.mpr fun ⟨contentType, r⟩ h_id => ?_
  obtain ⟨m, hm, rfl, -, h_ne, -⟩ := docIdentifier?_eq_some_iff.mp h_id
  exact h_ne (h_type m hm)

/-- Nothing is found for it, unless it cannot be read. -/
theorem react_doc_of_no_contentType
    (h_type : ∀ m, metadata? raw = some m → m.contentType = "") (name : String) (c : Context) :
    react (.doc raw) (some c) = Finding.unnamed.effects .doc name
      ∨ ∃ f, react (.doc raw) (some c) = (Finding.unreadable f).effects .doc name := by
  unfold react
  dsimp only
  rw [docName_eq, docIdentifier?_of_no_contentType h_type]
  cases readFault? raw with
  | some f => exact .inr ⟨f, rfl⟩
  | none => exact .inl rfl

end React

/-! ### Schemas with another block -/

/-- The document or schema with its block replaced. -/
def withBlock (es block : Entries) : Value := .map (es.set (.text blockKey) (.map block))

section Block

variable {es block : Entries}

theorem block?_of_get (h_block : es.get? blockKey = some (.map block)) :
    block? (.map es) = some block := by
  unfold block?
  change (es.get? blockKey).bind Value.entries? = some block
  rw [h_block]
  rfl

theorem block?_withBlock (es block : Entries) : block? (withBlock es block) = some block :=
  block?_of_get (Entries.find?_set_self es blockKey (.map block))

theorem contentType_of_metadata? {raw : Value} (h_block : block? raw = some block) {t : String}
    (h_text : firstText block Metadata.contentTypeKeys = .ok t) (m : Metadata)
    (hm : metadata? raw = some m) : m.contentType = t := by
  rcases block_cases raw with ⟨h_none, -, -⟩ | ⟨_, _, -, -, h_none, -⟩
    | ⟨block', m', h_block', h_read, h_some, -⟩
  · rw [h_block] at h_none
    cases h_none
  · rw [hm] at h_none
    cases h_none
  · obtain rfl := Option.some.inj (h_block.symm.trans h_block')
    obtain rfl := Option.some.inj (hm.symm.trans h_some)
    exact Except.ok.inj ((Metadata.ofBlock_ok h_read).1.symm.trans h_text)

/-- What is found, said of the metadata of the block. -/
theorem found_of_block {raw : Value} (h_block : block? raw = some block) (name : String) :
    found name raw = match Metadata.ofBlock block with
      | .error f => .unreadable f
      | .ok m =>
        if (m.forSchema name).identifier.isEmpty then .unnamed
        else .named (m.forSchema name).identifier := by
  unfold found readFault? identifier? metadata?
  rw [h_block, Option.bind_some, Option.bind_some]
  cases Metadata.ofBlock block with
  | error f => rfl
  | ok m =>
    dsimp only [Except.toOption]
    rw [Option.map_some, Option.filter_some]
    cases (m.forSchema name).identifier.isEmpty <;> rfl

/-- **A schema whose block has no content type** is read as if its name stood there. -/
theorem found_withContentType {name : String} (h_ne : name ≠ "") (h_trimmed : trimBlank name = name)
    (h_block : es.get? blockKey = some (.map block))
    (h_blank : firstText block Metadata.contentTypeKeys = .ok "") :
    found name (withBlock es (Metadata.withContentType block name)) = found name (.map es) := by
  rw [found_of_block (block?_withBlock es _), found_of_block (block?_of_get h_block),
    Metadata.ofBlock_withContentType h_ne h_trimmed h_blank]
  cases h_read : Metadata.ofBlock block with
  | error f => rfl
  | ok m =>
    have h_type : m.contentType = "" :=
      Except.ok.inj ((Metadata.ofBlock_ok h_read).1.symm.trans h_blank)
    dsimp only [Except.map]
    rw [Metadata.forSchema_of_eq_empty h_type, Metadata.forSchema_of_ne h_ne]

end Block

end Cms

namespace Session

open Cms

/-- In a call with the context `c` the handler acts on what it has found: these are its effects, and
the call past the dispatcher changes the context accordingly, and nothing else. -/
structure ActsOn (s : Session) (c : Context) (call : Call) (name : String) (x : Finding) :
    Prop where
  effects : react call (some c) = x.effects call.scope name
  step : ({ s with context := some c } : Session).step (.callShipped call)
    = ({ s with context := some (x.update call.scope name c) }, x.answer)

theorem actsOn_iff {s : Session} {c : Context} {call : Call} {name : String} {x : Finding} :
    s.ActsOn c call name x ↔ react call (some c) = x.effects call.scope name := by
  refine ⟨ActsOn.effects, fun h => ⟨h, ?_⟩⟩
  change finish (({ s with context := some c } : Session).performAll (react call (some c))) = _
  rw [h]
  cases x with
  | unreadable f => rfl
  | unnamed => rfl
  | named r => cases call.scope <;> rfl

/-- **Documents and schemas alike.** If the block has a content type, the call for a document and
the one for a schema act on the same finding: both fail with the same fault, both do nothing, or
both record the same identifier, the one under the content type and the other under the name of the
schema. If it has none, a call for the document records nothing, and a call for a schema with a
trimmed name does what it does for a block in which the name is the content type. -/
theorem callShipped_alike (s : Session) (c : Context) {es block : Entries}
    (h_block : es.get? blockKey = some (.map block)) (k : String) :
    (∀ contentType, firstText block Metadata.contentTypeKeys = .ok contentType →
        contentType ≠ "" →
        (∃ x, s.ActsOn c (.doc (.map es)) contentType x)
          ∧ ∀ x, s.ActsOn c (.doc (.map es)) contentType x
            ↔ s.ActsOn c (.schema (.text k) (.map es)) k x)
      ∧ (firstText block Metadata.contentTypeKeys = .ok "" → k ≠ "" → trimBlank k = k →
          (∀ name, s.ActsOn c (.doc (.map es)) name .unnamed
            ∨ ∃ f, s.ActsOn c (.doc (.map es)) name (.unreadable f))
          ∧ ({ s with context := some c } : Session).step
                (.callShipped (.schema (.text k) (.map es)))
              = ({ s with context := some c } : Session).step (.callShipped (.schema (.text k)
                  (withBlock es (Metadata.withContentType block k))))) := by
  have h_raw : block? (.map es) = some block := block?_of_get h_block
  refine ⟨fun contentType h_text h_ne => ?_, fun h_blank h_ne h_trimmed => ?_⟩
  · have h_doc := react_doc h_ne (contentType_of_metadata? h_raw h_text) k c
    refine ⟨⟨found k (.map es), actsOn_iff.mpr h_doc⟩, fun x => ?_⟩
    rw [actsOn_iff, actsOn_iff, h_doc, react_schema]
    -- either call shows what was found
    exact (Finding.effects_injective _ _).eq_iff.trans (Finding.effects_injective _ _).eq_iff.symm
  · refine ⟨fun name => ?_, ?_⟩
    · have h_doc := react_doc_of_no_contentType (contentType_of_metadata? h_raw h_blank) name c
      simp only [actsOn_iff]
      exact h_doc
    · have h_found := found_withContentType h_ne h_trimmed h_block h_blank
      change finish (performAll _ (react _ (some c))) = finish (performAll _ (react _ (some c)))
      rw [react_schema, react_schema, h_found]

/-- A document or schema in its second version, with or without a content type. -/
def second (slug : Value) : Entries :=
  [(.text blockKey, .map [(.text "slug", slug), (.text "version", .int 2)])]

theorem callShipped_alike_second :
    ({} : Session).ActsOn {} (.schema (.text "Post") (.map (second (.text "article")))) "Post"
        (.named "article@v2")
      ∧ ({} : Session).ActsOn {} (.schema (.text "Post") (.map (second .null))) "Post"
        (.named "Post@v2")
      ∧ (({} : Session).step (.callShipped (.doc (.map (second .null))))).1 = {} := by
  have h_block (slug : Value) : (second slug).get? blockKey
      = some (.map [(.text "slug", slug), (.text "version", .int 2)]) := rfl
  obtain ⟨h_typed, -⟩ := callShipped_alike {} {} (h_block (.text "article")) "Post"
  obtain ⟨-, h_untyped⟩ := callShipped_alike {} {} (h_block .null) "Post"
  obtain ⟨h_doc, h_schema⟩ := h_untyped rfl (by decide) rfl
  refine ⟨?_, ?_, ?_⟩
  · -- the call for the document is the one that is evaluated
    exact ((h_typed "article" rfl (by decide)).2 _).mp (actsOn_iff.mpr rfl)
  · refine ⟨rfl, ?_⟩
    exact h_schema.trans rfl
  · rcases h_doc "" with h | ⟨f, h⟩
    · exact congrArg Prod.fst h.step
    · exact congrArg Prod.fst h.step

end Session

end SchemaNaming
