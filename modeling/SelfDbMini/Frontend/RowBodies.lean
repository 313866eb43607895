import SelfDbMini.Frontend.PlainObject

namespace SelfDbMini.Frontend.RowBodies

open PlainObject

structure ColumnDefinition where
  type : String
  nullable : Option Bool
  deriving DecidableEq, Repr

structure Column where
  name : String
  type : String
  nullable : Bool
  deriving DecidableEq, Repr

/-- A field value of a row or of a row form. -/
inductive FieldValue
  | null
  | text (s : String)
  | other
  deriving DecidableEq, Repr

/-- `String.prototype.toLowerCase` on ASCII letters: its results are only compared with `'id'` and
searched for `'uuid'`, and no non-ASCII character lowercases to text that can stand in those. -/
def toLowerCase (s : String) : String := ⟨s.data.map Char.toLower⟩

def includes (s sub : String) : Bool := s.data.tails.any (fun t ↦ sub.data.isPrefixOf t)

/-- The column `openAddRowModal` and the Add Row form skip: a column named `id` of a UUID
type, generated by the backend. -/
def isGeneratedId (col : Column) : Bool :=
  toLowerCase col.name == "id" && includes (toLowerCase col.type) "uuid"

def columnsOf (schema : JsObject ColumnDefinition) : List Column :=
  schema.entries.map fun p ↦
    ⟨p.1, if p.2.type = "" then "VARCHAR(255)" else p.2.type, p.2.nullable.getD true⟩

/-- The body of Tables' `handleAddRow`: an empty string for every key of `tableSchema`. -/
def tablesAddRowBody (stripName : String → String) (tableSchema : JsObject ColumnDefinition) :
    JsObject FieldValue :=
  tableSchema.mapKeys stripName (fun _ _ ↦ .text "")

/-- `openAddRowModal`: an empty value for every column but the generated id. -/
def openAddRowModal (columns : List Column) : JsObject FieldValue :=
  columns.foldl (fun o col ↦ if isGeneratedId col then o else o.assign col.name (.text "")) .empty

def addRowInputs (columns : List Column) : List Column := columns.filter (fun c ↦ !isGeneratedId c)

def addRowInput (columns : List Column) (data : JsObject FieldValue) (index : ℕ) (v : String) :
    JsObject FieldValue :=
  match (addRowInputs columns).get? index with
  | some col => data.spread.define col.name (.text v)
  | none => data

def isFilled : FieldValue → Bool
  | .null => false
  | .text s => s != ""
  | .other => true

/-- The body of TableDetail's `handleAddRow`. -/
def detailAddRowBody (stripName : String → String) (newRowData : JsObject FieldValue) :
    JsObject FieldValue :=
  newRowData.entries.foldl
    (fun o p ↦ if isFilled p.2 && stripName p.1 != "" then o.assign (stripName p.1) p.2 else o)
    .empty

def editRowInput (columns : List Column) (data : JsObject FieldValue) (index : ℕ) (v : String) :
    JsObject FieldValue :=
  match columns.get? index with
  | some col => data.spread.define col.name (.text v)
  | none => data

/-- What TableDetail's `handleUpdateRow` hands to `stripObjectKeys`: the edited row without
its `id` field. -/
def updateRowRest (data : JsObject FieldValue) : JsObject FieldValue := data.rest "id"

/-- The Add Row form's data after opening it and a sequence of inputs. -/
def addRowForm (columns : List Column) (inputs : List (ℕ × String)) : JsObject FieldValue :=
  inputs.foldl (fun d i ↦ addRowInput columns d i.1 i.2) (openAddRowModal columns)

/-- The Edit Row form's data after opening it on `row` and a sequence of inputs. -/
def editRowForm (columns : List Column) (row : JsObject FieldValue) (inputs : List (ℕ × String)) :
    JsObject FieldValue :=
  inputs.foldl (fun d i ↦ editRowInput columns d i.1 i.2) row.spread

/-- An input into the column named `k` replaces the value typed for it so far. -/
def typedStep (columns : List Column) (k : String) (acc : Option String) (i : ℕ × String) :
    Option String :=
  match columns.get? i.1 with
  | some col => if col.name = k then some i.2 else acc
  | none => acc

def typedValue (columns : List Column) (inputs : List (ℕ × String)) (k : String) : Option String :=
  inputs.foldl (typedStep columns k) none

variable (stripName : String → String)

theorem ne_proto_of_isGeneratedId {col : Column} (h : isGeneratedId col = true) :
    col.name ≠ "__proto__" := by
  rintro hn
  simp only [isGeneratedId, hn, Bool.and_eq_true, beq_iff_eq] at h
  exact absurd h.1 (by decide)

/-- Tables' quick-view body has a key for every column of the schema, the generated id
included. -/
theorem tables_add_row_writes_generated_id (schema : JsObject ColumnDefinition) (col : Column)
    (hcol : col ∈ columnsOf schema) (hid : isGeneratedId col = true)
    (hfix : stripName col.name = col.name) :
    col.name ∈ (tablesAddRowBody stripName schema).keys := by
  have hk : col.name ∈ schema.props.map Prod.fst := by
    rw [← JsObject.mem_keys, JsObject.keys]
    obtain ⟨p, hp, rfl⟩ := List.mem_map.1 hcol
    exact List.mem_map_of_mem Prod.fst hp
  rw [JsObject.mem_keys, tablesAddRowBody, JsObject.mem_mapKeys]
  exact ⟨ne_proto_of_isGeneratedId hid, col.name, hk, hfix⟩

def idTitleSchema : JsObject ColumnDefinition :=
  .ofEntries [("id", ⟨"uuid", some false⟩), ("title", ⟨"text", some true⟩)]

theorem tables_add_row_writes_generated_id_of_id_title :
    (⟨"id", "uuid", false⟩ ∈ columnsOf idTitleSchema ∧ isGeneratedId ⟨"id", "uuid", false⟩ = true ∧
      id "id" = "id") ∧ "id" ∈ (tablesAddRowBody id idTitleSchema).keys :=
  ⟨⟨by decide, by decide, rfl⟩,
    tables_add_row_writes_generated_id id idTitleSchema ⟨"id", "uuid", false⟩ (by decide)
      (by decide) rfl⟩

example : (tablesAddRowBody id idTitleSchema).entries = [("id", .text ""), ("title", .text "")] := by
  decide

theorem mem_openAddRowModal {columns : List Column} {k : String}
    (h : k ∈ (openAddRowModal columns).props.map Prod.fst) :
    ∃ col ∈ columns, isGeneratedId col = false ∧ col.name = k := by
  refine (JsObject.mem_foldl_of_step (fun k ↦ ∃ col ∈ columns, isGeneratedId col = false ∧
    col.name = k) _ columns (fun o col hcol k hk ↦ ?_) _ h).resolve_right (by simp)
  split at hk
  · exact .inr hk
  · next hg =>
    rcases JsObject.mem_assign.1 hk with ⟨rfl, -⟩ | hk
    · exact .inl ⟨col, hcol, Bool.eq_false_iff.2 hg, rfl⟩
    · exact .inr hk

theorem mem_addRowForm {columns : List Column} {inputs : List (ℕ × String)} {k : String}
    (h : k ∈ (addRowForm columns inputs).props.map Prod.fst) :
    ∃ col ∈ columns, isGeneratedId col = false ∧ col.name = k := by
  refine (JsObject.mem_foldl_of_step (fun k ↦ ∃ col ∈ columns, isGeneratedId col = false ∧
    col.name = k) _ inputs (fun o i _ k hk ↦ ?_) _ h).elim id mem_openAddRowModal
  dsimp only [addRowInput] at hk
  split at hk
  · next col hcol =>
    rcases JsObject.mem_define.1 hk with rfl | hk
    · obtain ⟨hmem, hg⟩ := List.mem_filter.1 (List.get?_mem hcol)
      exact .inl ⟨col, hmem, by simpa using hg, rfl⟩
    · exact .inr (JsObject.mem_spread.1 hk)
  · exact .inr hk

/-- Every key of the body TableDetail's `handleAddRow` sends is the stripped name of a column
other than the generated id. -/
theorem detail_add_row_keys (columns : List Column) (inputs : List (ℕ × String)) {k : String}
    (h : k ∈ (detailAddRowBody stripName (addRowForm columns inputs)).keys) :
    ∃ col ∈ columns, isGeneratedId col = false ∧ stripName col.name = k := by
  rw [JsObject.mem_keys, detailAddRowBody] at h
  refine (JsObject.mem_foldl_of_step (fun k ↦ ∃ col ∈ columns, isGeneratedId col = false ∧
    stripName col.name = k) _ _ (fun o p hp k hk ↦ ?_) _ h).resolve_right (by simp)
  split at hk
  · rcases JsObject.mem_assign.1 hk with ⟨rfl, -⟩ | hk
    · obtain ⟨col, hcol, hg, hname⟩ :=
        mem_addRowForm (JsObject.mem_keys.1 (List.mem_map_of_mem Prod.fst hp))
      exact .inl ⟨col, hcol, hg, by rw [hname]⟩
    · exact .inr hk
  · exact .inr hk

theorem detail_add_row_keys_of_title :
    "title" ∈ (detailAddRowBody id (addRowForm (columnsOf idTitleSchema) [(0, "a")])).keys ∧
      ∃ col ∈ columnsOf idTitleSchema, isGeneratedId col = false ∧ id col.name = "title" :=
  ⟨by decide, detail_add_row_keys id _ [(0, "a")] (by decide)⟩

theorem mem_editRowForm {columns : List Column} {row : JsObject FieldValue}
    {inputs : List (ℕ × String)} {k : String}
    (h : k ∈ (editRowForm columns row inputs).props.map Prod.fst) :
    k ∈ row.props.map Prod.fst ∨ ∃ col ∈ columns, col.name = k := by
  refine (JsObject.mem_foldl_of_step (fun k ↦ k ∈ row.props.map Prod.fst ∨
    ∃ col ∈ columns, col.name = k) _ inputs (fun o i _ k hk ↦ ?_) _ h).elim id
    (Or.inl ∘ JsObject.mem_spread.1)
  dsimp only [editRowInput] at hk
  split at hk
  · next col hcol =>
    rcases JsObject.mem_define.1 hk with rfl | hk
    · exact .inl (.inr ⟨col, List.get?_mem hcol, rfl⟩)
    · exact .inr (JsObject.mem_spread.1 hk)
  · exact .inr hk

/-- What TableDetail's `handleUpdateRow` hands to `stripObjectKeys` has no `id` key; each of
its keys is a field of the row or a column of the Edit Row form. -/
theorem update_row_rest_keys (columns : List Column) (row : JsObject FieldValue)
    (inputs : List (ℕ × String)) {k : String}
    (h : k ∈ (updateRowRest (editRowForm columns row inputs)).keys) :
    k ≠ "id" ∧ (k ∈ row.keys ∨ ∃ col ∈ columns, col.name = k) := by
  rw [JsObject.mem_keys, updateRowRest, JsObject.mem_rest] at h
  rw [JsObject.mem_keys]
  exact ⟨h.1, mem_editRowForm h.2⟩

theorem mem_foldl_editRowInput (columns : List Column) (inputs : List (ℕ × String)) (k : String)
    (P : FieldValue → Prop) (d : JsObject FieldValue) (hd : ∀ v, (k, v) ∈ d.props ↔ P v)
    (v : FieldValue) :
    (k, v) ∈ (inputs.foldl (fun d i ↦ editRowInput columns d i.1 i.2) d).props ↔
      match typedValue columns inputs k with
      | some s => v = .text s
      | none => P v := by
  suffices h : ∀ (d : JsObject FieldValue) (acc : Option String),
      (∀ v, (k, v) ∈ d.props ↔ acc.elim (P v) (v = .text ·)) →
      ∀ v, (k, v) ∈ (inputs.foldl (fun d i ↦ editRowInput columns d i.1 i.2) d).props ↔
        (inputs.foldl (typedStep columns k) acc).elim (P v) (v = .text ·) by
    rw [h d none hd v, typedValue]
    split <;> next heq => rw [heq]; rfl
  induction inputs with
  | nil => exact fun d acc hd ↦ hd
  | cons i inputs ih =>
    refine fun d acc hd ↦ ih _ _ fun v ↦ ?_
    simp only [editRowInput, typedStep]
    cases columns.get? i.1 with
    | none => exact hd v
    | some col =>
      rw [JsObject.mem_define_pair, JsObject.mem_spread_pair, hd]
      by_cases hn : col.name = k
      · subst hn
        simp
      · simp [hn, Ne.symm hn]

theorem mem_editRowForm_pair (columns : List Column) (row : JsObject FieldValue)
    (inputs : List (ℕ × String)) (k : String) (v : FieldValue) :
    (k, v) ∈ (editRowForm columns row inputs).props ↔
      match typedValue columns inputs k with
      | some s => v = .text s
      | none => (k, v) ∈ row.props :=
  mem_foldl_editRowInput columns inputs k _ row.spread (fun _ ↦ JsObject.mem_spread_pair) v

/-- What TableDetail's `handleUpdateRow` hands to `stripObjectKeys` holds, for every field but
`id`, the value last typed into that field's Edit Row input, or else the value the row holds,
and nothing else: a field left alone is sent unchanged and a typed `id` is dropped. -/
theorem update_row_sends_typed_or_stored (columns : List Column) (row : JsObject FieldValue)
    (inputs : List (ℕ × String)) (k : String) (v : FieldValue) :
    (k, v) ∈ (updateRowRest (editRowForm columns row inputs)).props ↔
      k ≠ "id" ∧ match typedValue columns inputs k with
        | some s => v = .text s
        | none => (k, v) ∈ row.props := by
  rw [updateRowRest, JsObject.mem_rest_pair, mem_editRowForm_pair]

theorem update_row_rest_keys_of_title :
    let row : JsObject FieldValue := .ofEntries [("id", .text "r1"), ("title", .text "a")]
    "title" ∈ (updateRowRest (editRowForm (columnsOf idTitleSchema) row [(1, "b")])).keys ∧
      "title" ≠ "id" ∧ ("title" ∈ row.keys ∨ ∃ col ∈ columnsOf idTitleSchema, col.name = "title") :=
  ⟨by decide, update_row_rest_keys _ _ [(1, "b")] (by decide)⟩

theorem openAddRowModal_values (columns : List Column) :
    ∀ p ∈ (openAddRowModal columns).props, p.2 = .text "" := by
  suffices hs : ∀ o : JsObject FieldValue, (∀ p ∈ o.props, p.2 = .text "") →
      ∀ p ∈ (columns.foldl (fun o col ↦ if isGeneratedId col then o
        else o.assign col.name (.text "")) o).props, p.2 = .text "" from
    hs .empty (by simp)
  induction columns with
  | nil => exact fun o ho ↦ ho
  | cons col columns ih =>
    refine fun o ho ↦ ih _ ?_
    dsimp only
    split
    · exact ho
    · exact @JsObject.forall_assign _ (fun x : FieldValue ↦ x = .text "") _ ho _ _ rfl

theorem mem_addRowForm_pair (columns : List Column) (inputs : List (ℕ × String)) (k : String)
    (v : FieldValue) :
    (k, v) ∈ (addRowForm columns inputs).props ↔
      match typedValue (addRowInputs columns) inputs k with
      | some s => v = .text s
      | none => (k, v) ∈ (openAddRowModal columns).props :=
  mem_foldl_editRowInput _ inputs k _ _ (fun _ ↦ Iff.rfl) v

theorem addRowForm_entries_stripped_distinct (columns : List Column) (inputs : List (ℕ × String))
    (hinj : ∀ c ∈ addRowInputs columns, ∀ c' ∈ addRowInputs columns,
      stripName c.name = stripName c'.name → c.name = c'.name) :
    (addRowForm columns inputs).entries.Pairwise fun p q ↦ stripName p.1 ≠ stripName q.1 := by
  have hname : ∀ p ∈ (addRowForm columns inputs).entries,
      ∃ c ∈ addRowInputs columns, c.name = p.1 := by
    intro p hp
    obtain ⟨c, hc, hg, he⟩ :=
      mem_addRowForm (JsObject.mem_keys.1 (List.mem_map_of_mem Prod.fst hp))
    exact ⟨c, List.mem_filter.2 ⟨hc, by simp [hg]⟩, he⟩
  refine (List.pairwise_map.1 (JsObject.entries_nodup _)).imp_of_mem fun hp hq hne he ↦ hne ?_
  obtain ⟨c, hc, h₁⟩ := hname _ hp
  obtain ⟨c', hc', h₂⟩ := hname _ hq
  rw [← h₁, ← h₂] at he ⊢
  exact hinj c hc c' hc' he

/-- With the form's column names stripping to distinct keys, TableDetail's Add Row sends, under
each stripped name other than `''` and `__proto__`, the value last typed into that column's
input when it is not empty, and nothing else: an untouched or cleared field is left out. -/
theorem add_row_sends_filled_inputs (columns : List Column) (inputs : List (ℕ × String))
    (hinj : ∀ c ∈ addRowInputs columns, ∀ c' ∈ addRowInputs columns,
      stripName c.name = stripName c'.name → c.name = c'.name)
    (k : String) (v : FieldValue) :
    (k, v) ∈ (detailAddRowBody stripName (addRowForm columns inputs)).props ↔
      k ≠ "__proto__" ∧ k ≠ "" ∧ ∃ name s, stripName name = k ∧
        typedValue (addRowInputs columns) inputs name = some s ∧ s ≠ "" ∧ v = .text s := by
  rw [detailAddRowBody, JsObject.mem_foldl_assign_pair _ _ (by simp)
    ((addRowForm_entries_stripped_distinct stripName columns inputs hinj).imp fun h _ _ ↦ h)]
  simp only [JsObject.empty_props, List.not_mem_nil, false_or]
  refine and_congr_right fun _ ↦ ⟨?_, ?_⟩
  · rintro ⟨⟨name, v'⟩, hp, hc, rfl, rfl⟩
    rw [(JsObject.entries_perm _).mem_iff, mem_addRowForm_pair] at hp
    simp only [Bool.and_eq_true, bne_iff_ne, ne_eq] at hc
    split at hp
    · next s ht =>
      subst hp
      exact ⟨hc.2, name, s, rfl, ht, by simpa [isFilled] using hc.1, rfl⟩
    · have h₀ : v' = .text "" := openAddRowModal_values columns _ hp
      subst h₀
      exact absurd hc.1 (by decide)
  · rintro ⟨hk, name, s, rfl, ht, hs, rfl⟩
    refine ⟨(name, .text s), ?_, by simp [isFilled, hs, hk], rfl, rfl⟩
    rw [(JsObject.entries_perm _).mem_iff, mem_addRowForm_pair, ht]

theorem add_row_sends_filled_inputs_of_title :
    (∀ c ∈ addRowInputs (columnsOf idTitleSchema), ∀ c' ∈ addRowInputs (columnsOf idTitleSchema),
      id c.name = id c'.name → c.name = c'.name) ∧
    (("title", .text "a") ∈ (detailAddRowBody id (addRowForm (columnsOf idTitleSchema)
        [(0, "a")])).props ↔
      "title" ≠ "__proto__" ∧ "title" ≠ "" ∧ ∃ name s, id name = "title" ∧
        typedValue (addRowInputs (columnsOf idTitleSchema)) [(0, "a")] name = some s ∧ s ≠ "" ∧
        FieldValue.text "a" = .text s) :=
  ⟨fun _ _ _ _ h ↦ h,
    add_row_sends_filled_inputs id _ [(0, "a")] (fun _ _ _ _ h ↦ h) "title" (.text "a")⟩

end SelfDbMini.Frontend.RowBodies
