import Mathlib.Data.List.Sort

namespace SelfDbMini.Frontend.PlainObject

variable {α : Type}

def decimalValue (digits : List Char) : ℕ :=
  digits.foldl (fun n d ↦ 10 * n + (d.toNat - '0'.toNat)) 0

/-- A property key that `Object.keys` lists before all others: the canonical decimal form
of an integer below 2^32 - 1. -/
def isArrayIndex (key : String) : Bool :=
  match key.data with
  | [] => false
  | ['0'] => true
  | c :: rest => c != '0' && (c :: rest).all Char.isDigit &&
      decide (decimalValue (c :: rest) < 4294967295)

/-- JavaScript truthiness of a `string | null`. -/
def truthy : Option String → Bool
  | some s => s != ""
  | none => false

def orNull (s : String) : Option String := if s = "" then none else some s

/-- Assignment to an existing key overwrites it in place; a new key goes last. -/
def setProp (k : String) (v : α) : List (String × α) → List (String × α)
  | [] => [(k, v)]
  | p :: ps => if p.1 = k then (k, v) :: ps else p :: setProp k v ps

theorem setProp_keys_of_mem (k : String) (v : α) (ps : List (String × α))
    (h : k ∈ ps.map Prod.fst) : (setProp k v ps).map Prod.fst = ps.map Prod.fst := by
  induction ps with
  | nil => simp at h
  | cons p ps ih =>
    by_cases hp : p.1 = k
    · simp [setProp, hp]
    · have h' : k ∈ ps.map Prod.fst := by
        simp only [List.map_cons, List.mem_cons] at h
        exact h.resolve_left (Ne.symm hp)
      simp [setProp, hp, ih h']

theorem setProp_keys_of_not_mem (k : String) (v : α) (ps : List (String × α))
    (h : k ∉ ps.map Prod.fst) : (setProp k v ps).map Prod.fst = ps.map Prod.fst ++ [k] := by
  induction ps with
  | nil => rfl
  | cons p ps ih =>
    simp only [List.map_cons, List.mem_cons, not_or] at h
    simp [setProp, Ne.symm h.1, ih h.2]

theorem setProp_of_not_mem (k : String) (v : α) (ps : List (String × α))
    (h : k ∉ ps.map Prod.fst) : setProp k v ps = ps ++ [(k, v)] := by
  induction ps with
  | nil => rfl
  | cons p ps ih =>
    simp only [List.map_cons, List.mem_cons, not_or] at h
    simp [setProp, Ne.symm h.1, ih h.2]

theorem mem_setProp_pair {k k' : String} {v v' : α} {ps : List (String × α)}
    (h : (ps.map Prod.fst).Nodup) :
    (k', v') ∈ setProp k v ps ↔ (k' = k ∧ v' = v) ∨ (k' ≠ k ∧ (k', v') ∈ ps) := by
  induction ps with
  | nil => simp [setProp]
  | cons p ps ih =>
    obtain ⟨pk, pv⟩ := p
    obtain ⟨hp, hps⟩ := List.nodup_cons.1 h
    have hfresh : (k', v') ∈ ps → k' ≠ pk := fun hm he ↦ hp (by simpa [he] using List.mem_map_of_mem Prod.fst hm)
    by_cases hk : pk = k
    · subst hk
      simp only [setProp, if_true, List.mem_cons, Prod.mk.injEq]
      constructor
      · rintro (h | hm)
        · exact .inl h
        · exact .inr ⟨hfresh hm, .inr hm⟩
      · rintro (h | ⟨hne, ⟨rfl, -⟩ | hm⟩)
        · exact .inl h
        · exact absurd rfl hne
        · exact .inr hm
    · simp only [setProp, hk, if_false, List.mem_cons, Prod.mk.injEq, ih hps]
      constructor
      · rintro (⟨rfl, rfl⟩ | h | ⟨hne, hm⟩)
        · exact .inr ⟨hk, .inl ⟨rfl, rfl⟩⟩
        · exact .inl h
        · exact .inr ⟨hne, .inr hm⟩
      · rintro (h | ⟨hne, h | hm⟩)
        · exact .inr (.inl h)
        · exact .inl h
        · exact .inr (.inr ⟨hne, hm⟩)

/-- A plain object's own string-keyed properties in creation order. Keys are distinct. -/
structure JsObject (α : Type) where
  props : List (String × α)
  nodup : (props.map Prod.fst).Nodup

namespace JsObject

def empty : JsObject α := ⟨[], List.nodup_nil⟩

theorem nodup_setProp (o : JsObject α) (k : String) (v : α) :
    ((setProp k v o.props).map Prod.fst).Nodup := by
  by_cases h : k ∈ o.props.map Prod.fst
  · rw [setProp_keys_of_mem k v _ h]
    exact o.nodup
  · rw [setProp_keys_of_not_mem k v _ h, List.nodup_append]
    exact ⟨o.nodup, List.nodup_singleton k, by simpa using h⟩

/-- `CreateDataProperty`, as object spread and computed keys of a literal define a
property. -/
def define (o : JsObject α) (k : String) (v : α) : JsObject α :=
  ⟨setProp k v o.props, o.nodup_setProp k v⟩

/-- `o[k] = v` on a plain object: the key `__proto__` reaches the inherited accessor and
makes no own property. -/
def assign (o : JsObject α) (k : String) (v : α) : JsObject α :=
  if k = "__proto__" then o else o.define k v

/-- The object defined property by property from a list of entries. -/
def ofEntries (l : List (String × α)) : JsObject α :=
  l.foldl (fun o p ↦ o.define p.1 p.2) empty

/-- `OrdinaryOwnPropertyKeys` order, which `Object.keys`, `Object.entries`, `JSON.stringify`
and object spread follow: array indices ascending, then the other keys in creation order. -/
def entries (o : JsObject α) : List (String × α) :=
  (o.props.filter (fun p ↦ isArrayIndex p.1)).insertionSort
      (fun p q ↦ decimalValue p.1.data ≤ decimalValue q.1.data) ++
    o.props.filter (fun p ↦ !isArrayIndex p.1)

def keys (o : JsObject α) : List String := o.entries.map Prod.fst

/-- `{ ...o }` -/
def spread (o : JsObject α) : JsObject α := ofEntries o.entries

/-- The rest object of `const { k, ...rest } = o`. -/
def rest (o : JsObject α) (k : String) : JsObject α :=
  ofEntries (o.entries.filter (fun p ↦ p.1 != k))

/-- `Object.keys(o).forEach(key => out[f(key)] = g(key, o[key]))` into a fresh object. -/
def mapKeys {β : Type} (o : JsObject α) (f : String → String) (g : String → α → β) :
    JsObject β :=
  o.entries.foldl (fun out p ↦ out.assign (f p.1) (g p.1 p.2)) empty

theorem entries_perm (o : JsObject α) : o.entries.Perm o.props :=
  ((List.perm_insertionSort _ _).append_right _).trans (List.filter_append_perm _ _)

theorem mem_keys {o : JsObject α} {k : String} : k ∈ o.keys ↔ k ∈ o.props.map Prod.fst :=
  ((o.entries_perm).map Prod.fst).mem_iff

theorem entries_of_no_index (o : JsObject α) (h : ∀ p ∈ o.props, isArrayIndex p.1 = false) :
    o.entries = o.props := by
  have hf : o.props.filter (fun p ↦ isArrayIndex p.1) = [] :=
    List.filter_eq_nil_iff.2 (fun p hp ↦ by simp [h p hp])
  have ht : o.props.filter (fun p ↦ !isArrayIndex p.1) = o.props :=
    List.filter_eq_self.2 (fun p hp ↦ by simp [h p hp])
  simp only [entries, hf, ht, List.insertionSort, List.nil_append]

@[simp] theorem define_props (o : JsObject α) (k : String) (v : α) :
    (o.define k v).props = setProp k v o.props := rfl

@[simp] theorem empty_props : (empty : JsObject α).props = [] := rfl

theorem mem_define {o : JsObject α} {k k' : String} {v : α} :
    k ∈ (o.define k' v).props.map Prod.fst ↔ k = k' ∨ k ∈ o.props.map Prod.fst := by
  by_cases h : k' ∈ o.props.map Prod.fst
  · rw [define_props, setProp_keys_of_mem k' v _ h]
    constructor
    · exact Or.inr
    · rintro (rfl | h') <;> assumption
  · rw [define_props, setProp_keys_of_not_mem k' v _ h]
    simp [or_comm]

theorem mem_assign {o : JsObject α} {k k' : String} {v : α} :
    k ∈ (o.assign k' v).props.map Prod.fst ↔
      (k = k' ∧ k' ≠ "__proto__") ∨ k ∈ o.props.map Prod.fst := by
  by_cases hp : k' = "__proto__"
  · simp [assign, hp]
  · simp only [assign, hp, if_false, mem_define, ne_eq, not_false_eq_true, and_true]

theorem foldl_assign_of_fresh {β : Type} (key : β → String) (val : β → α) (l : List β)
    (o : JsObject α) (hfresh : ∀ b ∈ l, key b ∉ o.props.map Prod.fst ∧ key b ≠ "__proto__")
    (hnodup : (l.map key).Nodup) :
    (l.foldl (fun o b ↦ o.assign (key b) (val b)) o).props =
      o.props ++ l.map (fun b ↦ (key b, val b)) := by
  induction l generalizing o with
  | nil => simp
  | cons b l ih =>
    simp only [List.map_cons, List.nodup_cons, List.mem_map] at hnodup
    have hb := hfresh b (List.mem_cons_self b l)
    have ho : (o.assign (key b) (val b)).props = o.props ++ [(key b, val b)] := by
      simp only [assign, hb.2, if_false, define_props]
      exact setProp_of_not_mem _ _ _ hb.1
    rw [List.foldl_cons, ih _ (fun b' hb' ↦ ⟨?_, (hfresh b' (List.mem_cons_of_mem b hb')).2⟩)
      hnodup.2, ho]
    · simp
    · rw [ho, List.map_append, List.mem_append, not_or]
      refine ⟨(hfresh b' (List.mem_cons_of_mem b hb')).1, ?_⟩
      simp only [List.map_cons, List.map_nil, List.mem_singleton]
      exact fun he ↦ hnodup.1 ⟨b', hb', he⟩

theorem mem_ofEntries {l : List (String × α)} {k : String} :
    k ∈ (ofEntries l).props.map Prod.fst ↔ k ∈ l.map Prod.fst := by
  suffices h : ∀ o : JsObject α, k ∈ (l.foldl (fun o p ↦ o.define p.1 p.2) o).props.map Prod.fst ↔
      k ∈ l.map Prod.fst ∨ k ∈ o.props.map Prod.fst by simpa using h empty
  induction l with
  | nil => simp
  | cons p l ih =>
    intro o
    rw [List.foldl_cons, ih, mem_define]
    simp only [List.map_cons, List.mem_cons]
    tauto

theorem mem_spread {o : JsObject α} {k : String} :
    k ∈ o.spread.props.map Prod.fst ↔ k ∈ o.props.map Prod.fst := by
  rw [spread, mem_ofEntries, ← keys, mem_keys]

/-- A fold whose every step adds only keys satisfying `P` builds an object whose keys satisfy
`P` or are keys of the object it starts from. -/
theorem mem_foldl_of_step {β γ : Type} (P : String → Prop) (f : JsObject β → γ → JsObject β)
    (l : List γ)
    (hf : ∀ o, ∀ x ∈ l, ∀ k ∈ (f o x).props.map Prod.fst, P k ∨ k ∈ o.props.map Prod.fst)
    (o : JsObject β) {k : String} (h : k ∈ (l.foldl f o).props.map Prod.fst) :
    P k ∨ k ∈ o.props.map Prod.fst := by
  induction l generalizing o with
  | nil => exact .inr h
  | cons x l ih =>
    rcases ih (fun o y hy ↦ hf o y (List.mem_cons_of_mem x hy)) _ h with hp | h'
    · exact .inl hp
    · exact hf o x (List.mem_cons_self x l) k h'

theorem mem_rest {o : JsObject α} {k k' : String} :
    k ∈ (o.rest k').props.map Prod.fst ↔ k ≠ k' ∧ k ∈ o.props.map Prod.fst := by
  rw [rest, mem_ofEntries, ← mem_keys, keys]
  simp only [List.mem_map, List.mem_filter, bne_iff_ne, ne_eq]
  constructor
  · rintro ⟨p, ⟨hp, hne⟩, rfl⟩
    exact ⟨hne, p, hp, rfl⟩
  · rintro ⟨hne, p, hp, rfl⟩
    exact ⟨p, ⟨hp, hne⟩, rfl⟩

theorem ofEntries_props {l : List (String × α)} (h : (l.map Prod.fst).Nodup) :
    (ofEntries l).props = l := by
  suffices hs : ∀ o : JsObject α, ((o.props ++ l).map Prod.fst).Nodup →
      (l.foldl (fun o p ↦ o.define p.1 p.2) o).props = o.props ++ l by
    simpa using hs empty (by simpa using h)
  clear h
  induction l with
  | nil => simp
  | cons p l ih =>
    intro o ho
    have hp : p.1 ∉ o.props.map Prod.fst := by
      simp only [List.map_append, List.map_cons, List.nodup_append] at ho
      exact fun hm ↦ ho.2.2 hm (List.mem_cons_self _ _)
    have hdef : (o.define p.1 p.2).props = o.props ++ [p] := by
      rw [define_props, setProp_of_not_mem _ _ _ hp]
    rw [List.foldl_cons, ih _ (by rwa [hdef, List.append_assoc]), hdef, List.append_assoc]
    rfl

theorem entries_nodup (o : JsObject α) : (o.entries.map Prod.fst).Nodup :=
  ((o.entries_perm).map Prod.fst).nodup_iff.2 o.nodup

theorem mem_define_pair {o : JsObject α} {k k' : String} {v v' : α} :
    (k', v') ∈ (o.define k v).props ↔ (k' = k ∧ v' = v) ∨ (k' ≠ k ∧ (k', v') ∈ o.props) :=
  mem_setProp_pair o.nodup

theorem mem_spread_pair {o : JsObject α} {k : String} {v : α} :
    (k, v) ∈ o.spread.props ↔ (k, v) ∈ o.props := by
  rw [spread, ofEntries_props o.entries_nodup]
  exact o.entries_perm.mem_iff

theorem mem_rest_pair {o : JsObject α} {k k' : String} {v : α} :
    (k, v) ∈ (o.rest k').props ↔ k ≠ k' ∧ (k, v) ∈ o.props := by
  rw [rest, ofEntries_props (o.entries_nodup.sublist ((List.filter_sublist _).map _)),
    List.mem_filter, o.entries_perm.mem_iff, bne_iff_ne, and_comm]

theorem mem_foldl_assign {β : Type} (f : String → String) (g : String → α → β) (k : String)
    (l : List (String × α)) (out : JsObject β) :
    k ∈ (l.foldl (fun out p ↦ out.assign (f p.1) (g p.1 p.2)) out).props.map Prod.fst ↔
      (k ≠ "__proto__" ∧ ∃ k' ∈ l.map Prod.fst, f k' = k) ∨ k ∈ out.props.map Prod.fst := by
  induction l generalizing out with
  | nil => simp
  | cons p l ih =>
    rw [List.foldl_cons, ih, mem_assign]
    simp only [List.map_cons, List.mem_cons, exists_eq_or_imp]
    by_cases hk : f p.1 = k
    · subst hk
      simp only [true_and, true_or, and_true]
      tauto
    · simp only [hk, Ne.symm hk, false_and, false_or]

theorem mem_assign_pair_of_fresh {o : JsObject α} {k k' : String} {v v' : α}
    (hk : k ∉ o.props.map Prod.fst) :
    (k', v') ∈ (o.assign k v).props ↔ (k ≠ "__proto__" ∧ k' = k ∧ v' = v) ∨ (k', v') ∈ o.props := by
  unfold assign
  split_ifs with hp
  · simp [hp]
  · have hne : (k', v') ∈ o.props → k' ≠ k := fun hm he ↦
      hk (by subst he; exact List.mem_map_of_mem Prod.fst hm)
    rw [mem_define_pair]
    constructor
    · rintro (⟨rfl, rfl⟩ | ⟨-, hm⟩)
      · exact .inl ⟨hp, rfl, rfl⟩
      · exact .inr hm
    · rintro (⟨-, rfl, rfl⟩ | hm)
      · exact .inl ⟨rfl, rfl⟩
      · exact .inr ⟨hne hm, hm⟩

theorem forall_assign {P : α → Prop} {o : JsObject α} (ho : ∀ p ∈ o.props, P p.2) {k : String}
    {v : α} (hv : P v) : ∀ p ∈ (o.assign k v).props, P p.2 := by
  rintro ⟨k', v'⟩ hp
  unfold assign at hp
  split_ifs at hp
  · exact ho _ hp
  · rcases mem_define_pair.1 hp with ⟨-, rfl⟩ | ⟨-, hm⟩
    · exact hv
    · exact ho _ hm

/-- Assigning, for the entries that pass `cond`, their value under the key `f` gives of each
entry when the keys are fresh and pairwise distinct: every key is written once. -/
theorem mem_foldl_assign_pair {cond : String × α → Bool} {f : String → String}
    (l : List (String × α)) (o : JsObject α)
    (hfresh : ∀ p ∈ l, cond p = true → f p.1 ∉ o.props.map Prod.fst)
    (hdist : l.Pairwise fun p q ↦ cond p = true → cond q = true → f p.1 ≠ f q.1) {k : String}
    {v : α} :
    (k, v) ∈ (l.foldl (fun o p ↦ if cond p then o.assign (f p.1) p.2 else o) o).props ↔
      (k, v) ∈ o.props ∨ (k ≠ "__proto__" ∧ ∃ p ∈ l, cond p = true ∧ f p.1 = k ∧ p.2 = v) := by
  induction l generalizing o with
  | nil => simp
  | cons p l ih =>
    obtain ⟨hp, hl⟩ := List.pairwise_cons.1 hdist
    have hfresh' : ∀ q ∈ l, cond q = true →
        f q.1 ∉ (if cond p then o.assign (f p.1) p.2 else o).props.map Prod.fst := by
      intro q hq hcq hm
      have hq' := hfresh q (List.mem_cons_of_mem p hq) hcq
      split_ifs at hm with hc
      · rcases mem_assign.1 hm with ⟨he, -⟩ | hm
        · exact hp q hq hc hcq he.symm
        · exact hq' hm
      · exact hq' hm
    rw [List.foldl_cons, ih _ hfresh' hl]
    by_cases hc : cond p = true
    · rw [if_pos hc, mem_assign_pair_of_fresh (hfresh p (List.mem_cons_self p l) hc)]
      constructor
      · rintro ((⟨hP, rfl, rfl⟩ | hm) | ⟨hk, q, hq, hcq⟩)
        · exact .inr ⟨hP, p, List.mem_cons_self p l, hc, rfl, rfl⟩
        · exact .inl hm
        · exact .inr ⟨hk, q, List.mem_cons_of_mem p hq, hcq⟩
      · rintro (hm | ⟨hk, q, hq, hcq, rfl, rfl⟩)
        · exact .inl (.inr hm)
        · rcases List.mem_cons.1 hq with rfl | hq
          · exact .inl (.inl ⟨hk, rfl, rfl⟩)
          · exact .inr ⟨hk, q, hq, hcq, rfl, rfl⟩
    · rw [if_neg hc]
      constructor
      · rintro (hm | ⟨hk, q, hq, hcq⟩)
        · exact .inl hm
        · exact .inr ⟨hk, q, List.mem_cons_of_mem p hq, hcq⟩
      · rintro (hm | ⟨hk, q, hq, hcq⟩)
        · exact .inl hm
        · rcases List.mem_cons.1 hq with rfl | hq
          · exact absurd hcq.1 hc
          · exact .inr ⟨hk, q, hq, hcq⟩

theorem mem_foldl_assign_keys {β : Type} (key : β → String) (val : β → α) (l : List β)
    (o : JsObject α) {k : String} :
    k ∈ (l.foldl (fun o b ↦ o.assign (key b) (val b)) o).props.map Prod.fst ↔
      (k ≠ "__proto__" ∧ ∃ b ∈ l, key b = k) ∨ k ∈ o.props.map Prod.fst := by
  induction l generalizing o with
  | nil => simp
  | cons b l ih =>
    rw [List.foldl_cons, ih, mem_assign]
    simp only [List.mem_cons, exists_eq_or_imp]
    by_cases hk : key b = k
    · subst hk
      simp only [true_and, true_or, and_true]
      exact or_iff_right_of_imp fun h ↦ .inl h.1
    · simp only [hk, Ne.symm hk, false_and, false_or]

theorem mem_mapKeys {β : Type} {o : JsObject α} {f : String → String} {g : String → α → β}
    {k : String} :
    k ∈ (o.mapKeys f g).props.map Prod.fst ↔
      k ≠ "__proto__" ∧ ∃ k' ∈ o.props.map Prod.fst, f k' = k := by
  rw [mapKeys, mem_foldl_assign]
  simp only [empty_props, List.map_nil, List.not_mem_nil, or_false]
  exact and_congr_right fun _ ↦ exists_congr fun k' ↦ and_congr_left fun _ ↦ mem_keys

end JsObject

end SelfDbMini.Frontend.PlainObject
