import SelfDbMini.Frontend.PlainObject

namespace SelfDbMini.Frontend.CreateTable

open PlainObject

structure FormColumn where
  name : String
  type : String
  nullable : Bool
  deriving DecidableEq, Repr

structure ColumnSpec where
  type : String
  nullable : Bool
  deriving DecidableEq, Repr

structure CreateForm where
  name : String
  description : String
  public : Bool
  columns : List FormColumn
  deriving DecidableEq, Repr

def idColumn : FormColumn := ⟨"id", "uuid", false⟩

def initialCreateForm : CreateForm := ⟨"", "", false, [idColumn]⟩

/-- The field and value of one `handleColumnChange(index, field, value)` call. -/
inductive ColumnField
  | name (v : String)
  | type (v : String)
  | nullable (v : Bool)
  deriving DecidableEq, Repr

def ColumnField.apply : ColumnField → FormColumn → FormColumn
  | .name v, c => { c with name := v }
  | .type v, c => { c with type := v }
  | .nullable v, c => { c with nullable := v }

def handleAddColumn (form : CreateForm) : CreateForm :=
  { form with columns := form.columns ++ [⟨"", "text", true⟩] }

def handleRemoveColumn (form : CreateForm) (index : ℕ) : CreateForm :=
  { form with columns := form.columns.eraseIdx index }

def handleColumnChange (form : CreateForm) (index : ℕ) (field : ColumnField) : CreateForm :=
  { form with columns := form.columns.modify field.apply index }

/-- An input event of the Create Table modal. -/
inductive FormEvent
  | setName (v : String)
  | setDescription (v : String)
  | setPublic (v : Bool)
  | addColumn
  | removeColumn (index : ℕ)
  | columnChange (index : ℕ) (field : ColumnField)
  deriving DecidableEq, Repr

/-- The modal renders one row of controls per column, and a remove button on each row only
while there are two columns or more; an event on a control it does not render cannot
happen. -/
def formStep (form : CreateForm) : FormEvent → CreateForm
  | .setName v => { form with name := v }
  | .setDescription v => { form with description := v }
  | .setPublic v => { form with public := v }
  | .addColumn => handleAddColumn form
  | .removeColumn i =>
    if 1 < form.columns.length ∧ i < form.columns.length then handleRemoveColumn form i else form
  | .columnChange i f => if i < form.columns.length then handleColumnChange form i f else form

def formRun (form : CreateForm) (events : List FormEvent) : CreateForm :=
  events.foldl formStep form

structure CreateTableBody where
  name : String
  description : Option String
  public : Bool
  schema : JsObject ColumnSpec

/-- What submitting a form does: an alert, or the request with its body. -/
inductive Submit (β : Type)
  | alert (message : String)
  | send (body : β)
  deriving DecidableEq, Repr

/-- The check of a required text field that the forms share:
`const v = stripName(value); if (!v) { alert(message); return; }`. -/
def requireStripped (stripName : String → String) (value message : String) :
    Except String String :=
  if stripName value = "" then .error message else .ok (stripName value)

/-- The loop of `handleCreateTable` that builds `schema` from the columns. -/
def buildSchema (stripName : String → String) (schema : JsObject ColumnSpec) :
    List FormColumn → Except String (JsObject ColumnSpec)
  | [] => .ok schema
  | col :: cols =>
    match requireStripped stripName col.name "Column names cannot be empty" with
    | .error message => .error message
    | .ok colName => buildSchema stripName (schema.assign colName ⟨col.type, col.nullable⟩) cols

def handleCreateTable (stripName : String → String) (form : CreateForm) : Submit CreateTableBody :=
  match requireStripped stripName form.name "Table name cannot be empty" with
  | .error message => .alert message
  | .ok tableName =>
    match buildSchema stripName .empty form.columns with
    | .error message => .alert message
    | .ok schema => .send ⟨tableName, orNull (stripName form.description), form.public, schema⟩

variable (stripName : String → String)

theorem requireStripped_eq (value message : String) :
    requireStripped stripName value message =
      if stripName value = "" then .error message else .ok (stripName value) := rfl

theorem buildSchema_of_nonempty (schema : JsObject ColumnSpec) (cols : List FormColumn)
    (h : ∀ c ∈ cols, stripName c.name ≠ "") :
    buildSchema stripName schema cols =
      .ok (cols.foldl (fun o c ↦ o.assign (stripName c.name) ⟨c.type, c.nullable⟩) schema) := by
  induction cols generalizing schema with
  | nil => rfl
  | cons c cols ih =>
    rw [buildSchema, requireStripped_eq, if_neg (h c (List.mem_cons_self c cols))]
    exact ih _ (fun c' hc' ↦ h c' (List.mem_cons_of_mem c hc'))

theorem buildSchema_of_empty_name (schema : JsObject ColumnSpec) (cols : List FormColumn)
    (h : ∃ c ∈ cols, stripName c.name = "") :
    buildSchema stripName schema cols = .error "Column names cannot be empty" := by
  induction cols generalizing schema with
  | nil => simp at h
  | cons c cols ih =>
    rw [buildSchema, requireStripped_eq]
    split_ifs with hc
    · rfl
    · obtain ⟨c', hc', he⟩ := h
      rcases List.mem_cons.1 hc' with rfl | hc'
      · exact absurd he hc
      · exact ih _ ⟨c', hc', he⟩

theorem handleCreateTable_eq (form : CreateForm) :
    handleCreateTable stripName form =
      if stripName form.name = "" then .alert "Table name cannot be empty"
      else if ∃ c ∈ form.columns, stripName c.name = "" then .alert "Column names cannot be empty"
      else .send ⟨stripName form.name, orNull (stripName form.description), form.public,
        form.columns.foldl (fun o c ↦ o.assign (stripName c.name) ⟨c.type, c.nullable⟩) .empty⟩ := by
  unfold handleCreateTable
  rw [requireStripped_eq]
  split_ifs with hn hc
  · rfl
  · rw [buildSchema_of_empty_name stripName _ _ hc]
  · push_neg at hc
    rw [buildSchema_of_nonempty stripName _ _ hc]

/-- With distinct stripped names, none of them `__proto__` or an array index, the schema
sent has one entry per column, in the form's order. -/
theorem handleCreateTable_schema_of_distinct (form : CreateForm)
    (hname : stripName form.name ≠ "")
    (hcols : ∀ c ∈ form.columns, stripName c.name ≠ "" ∧ stripName c.name ≠ "__proto__" ∧
      isArrayIndex (stripName c.name) = false)
    (hdistinct : (form.columns.map (fun c ↦ stripName c.name)).Nodup) :
    ∃ body, handleCreateTable stripName form = .send body ∧
      body.schema.entries = form.columns.map (fun c ↦ (stripName c.name, ⟨c.type, c.nullable⟩)) := by
  have hc : ¬∃ c ∈ form.columns, stripName c.name = "" := fun ⟨c, hc, he⟩ ↦ (hcols c hc).1 he
  rw [handleCreateTable_eq, if_neg hname, if_neg hc]
  refine ⟨_, rfl, ?_⟩
  have hprops := JsObject.foldl_assign_of_fresh (fun c : FormColumn ↦ stripName c.name)
    (fun c ↦ (⟨c.type, c.nullable⟩ : ColumnSpec)) form.columns .empty
    (fun c hc ↦ ⟨by simp, (hcols c hc).2.1⟩) hdistinct
  simp only [JsObject.empty_props, List.nil_append] at hprops
  dsimp only
  rw [JsObject.entries_of_no_index _ (fun p hp ↦ ?_), hprops]
  rw [hprops, List.mem_map] at hp
  obtain ⟨c, hc, rfl⟩ := hp
  exact (hcols c hc).2.2

theorem handleCreateTable_schema_of_distinct_id_title :
    let form : CreateForm := ⟨"items", "", false, [idColumn, ⟨"title", "text", true⟩]⟩
    (id form.name ≠ "" ∧ (∀ c ∈ form.columns, id c.name ≠ "" ∧ id c.name ≠ "__proto__" ∧
      isArrayIndex (id c.name) = false) ∧ (form.columns.map (fun c ↦ id c.name)).Nodup) ∧
    ∃ body, handleCreateTable id form = .send body ∧
      body.schema.entries = form.columns.map (fun c ↦ (id c.name, ⟨c.type, c.nullable⟩)) :=
  ⟨⟨by decide, by decide, by decide⟩,
    handleCreateTable_schema_of_distinct id _ (by decide) (by decide) (by decide)⟩

theorem formStep_columns_ne_nil {form : CreateForm} (h : form.columns ≠ []) (e : FormEvent) :
    (formStep form e).columns ≠ [] := by
  cases e with
  | addColumn => simp [formStep, handleAddColumn]
  | removeColumn i =>
    simp only [formStep]
    split_ifs with hi
    · simp only [handleRemoveColumn, ne_eq, List.eraseIdx_eq_nil, h, false_or, not_and]
      omega
    · exact h
  | columnChange i f =>
    simp only [formStep]
    split_ifs
    · simpa [handleColumnChange, List.modify_eq_nil_iff] using h
    · exact h
  | _ => exact h

theorem formRun_columns_ne_nil (events : List FormEvent) :
    (formRun initialCreateForm events).columns ≠ [] := by
  suffices hs : ∀ form : CreateForm, form.columns ≠ [] → (formRun form events).columns ≠ [] from
    hs _ (List.cons_ne_nil _ _)
  induction events with
  | nil => exact fun _ h ↦ h
  | cons e events ih => exact fun form h ↦ ih _ (formStep_columns_ne_nil h e)

/-- Whatever the inputs of the Create Table modal, the form keeps a column, and the request it
sends has as schema keys exactly the stripped column names other than `__proto__`, which
`schema[colName] = ...` does not define: names that strip alike give one key, and the schema is
empty only when every column strips to `__proto__`. -/
theorem create_table_schema_keys (events : List FormEvent) {body : CreateTableBody}
    (h : handleCreateTable stripName (formRun initialCreateForm events) = .send body) :
    (formRun initialCreateForm events).columns ≠ [] ∧ ∀ k, k ∈ body.schema.keys ↔
      k ≠ "__proto__" ∧ ∃ c ∈ (formRun initialCreateForm events).columns, stripName c.name = k := by
  refine ⟨formRun_columns_ne_nil events, fun k ↦ ?_⟩
  rw [handleCreateTable_eq] at h
  split_ifs at h
  cases h
  rw [JsObject.mem_keys, JsObject.mem_foldl_assign_keys]
  simp only [JsObject.empty_props, List.map_nil, List.not_mem_nil, or_false]

theorem create_table_schema_keys_of_proto_column :
    ∃ body, handleCreateTable id (formRun initialCreateForm
        [.setName "items", .columnChange 0 (.name "__proto__")]) = .send body ∧
      (formRun initialCreateForm [.setName "items", .columnChange 0 (.name "__proto__")]).columns ≠ [] ∧
      ∀ k, k ∈ body.schema.keys ↔ k ≠ "__proto__" ∧ ∃ c ∈ (formRun initialCreateForm
        [.setName "items", .columnChange 0 (.name "__proto__")]).columns, id c.name = k :=
  ⟨_, rfl, create_table_schema_keys id _ rfl⟩

/-- Two columns whose names strip to the same key give one schema entry: the later column
replaces the earlier one, and the form does not alert. -/
theorem create_table_overwrites_duplicate_column (hname : stripName "items" = "items")
    (hid : stripName "id" = "id") :
    ∃ body, handleCreateTable stripName (formRun initialCreateForm
        [.setName "items", .addColumn, .columnChange 1 (.name "id")]) = .send body ∧
      body.schema.entries = [("id", ⟨"text", true⟩)] := by
  simp [formRun, formStep, handleAddColumn, handleColumnChange, initialCreateForm, idColumn,
    List.modify, ColumnField.apply, handleCreateTable, buildSchema, requireStripped, hname, hid]
  rfl

theorem create_table_overwrites_duplicate_column_at_identity :
    (id "items" = "items" ∧ id "id" = "id") ∧
      ∃ body, handleCreateTable id (formRun initialCreateForm
        [.setName "items", .addColumn, .columnChange 1 (.name "id")]) = .send body ∧
      body.schema.entries = [("id", ⟨"text", true⟩)] :=
  ⟨⟨rfl, rfl⟩, create_table_overwrites_duplicate_column id rfl rfl⟩

end SelfDbMini.Frontend.CreateTable
