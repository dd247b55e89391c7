/-
Fields in the order of their names.

A chain of entries is a finite map when its names increase, in the chain itself and in all
maps inside it.  This is what setting fields one after the other leads to, and a map that is
to be made up from parts that may be missing is made up in this way.

* **`pairwise_names_insert`**, **`ordered_insert`**: setting a field keeps the order, in the chain
  itself and in all of them;
* **`eq_of_get?_eq`**: chains in order are equal when all names have the same values;
* **`get?_ofPresent`**, **`ordered_ofPresent`**: fields for the parts that are present.
-/
import SpokenDate.Fields.Basic

namespace SpokenDate

mutual

/-- The maps inside a value list their names in increasing order. -/
def Value.Ordered : Value → Prop
  | .map fields => fields.Ordered
  | _ => True

/-- The names of the fields increase, and so do those of the maps inside them. -/
def Fields.Ordered : Fields → Prop
  | .nil => True
  | .cons name value rest =>
    value.Ordered ∧ (∀ other ∈ rest.names, name < other) ∧ rest.Ordered

end

namespace Fields

variable {name other : String} {value : Value}

/-- The order of all maps is that of the chain itself and that of the maps inside it. -/
theorem ordered_iff : ∀ {fields : Fields}, fields.Ordered ↔
    fields.names.Pairwise (· < ·) ∧ ∀ entry ∈ fields.toList, entry.2.Ordered
  | .nil => ⟨fun _ => ⟨.nil, nofun⟩, fun _ => trivial⟩
  | .cons name value rest => by
    show value.Ordered ∧ (∀ other ∈ rest.names, name < other) ∧ rest.Ordered ↔
      (name :: rest.names).Pairwise (· < ·) ∧ ∀ entry ∈ (name, value) :: rest.toList, entry.2.Ordered
    rw [List.pairwise_cons, List.forall_mem_cons, @ordered_iff rest]
    constructor
    · rintro ⟨hvalue, hfirst, hnames, hvalues⟩
      exact ⟨⟨hfirst, hnames⟩, hvalue, hvalues⟩
    · rintro ⟨⟨hfirst, hnames⟩, hvalue, hvalues⟩
      exact ⟨hvalue, hfirst, hnames, hvalues⟩

/-! ### Setting a field -/

theorem mem_toList_insert {fields : Fields} {entry : String × Value}
    (h : entry ∈ (fields.insert name value).toList) :
    entry = (name, value) ∨ entry ∈ fields.toList := by
  match fields with
  | .nil => exact .inl (List.mem_singleton.1 h)
  | .cons first old rest =>
    rw [insert] at h
    split at h
    · exact List.mem_cons.1 h
    · split at h
      · exact (List.mem_cons.1 h).imp id (List.mem_cons_of_mem _)
      · rcases List.mem_cons.1 h with hfirst | hrest
        · exact .inr (hfirst ▸ List.mem_cons_self)
        · exact (mem_toList_insert hrest).imp id (List.mem_cons_of_mem _)

theorem mem_names_insert {fields : Fields} (h : other ∈ (fields.insert name value).names) :
    other = name ∨ other ∈ fields.names := by
  obtain ⟨entry, hentry, rfl⟩ := List.mem_map.1 h
  rcases mem_toList_insert hentry with rfl | hentry
  · exact .inl rfl
  · exact .inr (List.mem_map_of_mem hentry)

/-- **Setting a field keeps the names in order.** -/
theorem pairwise_names_insert {fields : Fields} (h : fields.names.Pairwise (· < ·)) :
    (fields.insert name value).names.Pairwise (· < ·) := by
  match fields with
  | .nil => exact List.pairwise_singleton _ _
  | .cons first old rest =>
    obtain ⟨hfirst, hrest⟩ := List.pairwise_cons.1 h
    rw [insert]
    by_cases hlt : name < first
    · rw [if_pos hlt]
      refine List.pairwise_cons.2 ⟨?_, h⟩
      intro other hother
      rcases List.mem_cons.1 hother with rfl | hother
      · exact hlt
      · exact String.lt_trans hlt (hfirst other hother)
    rw [if_neg hlt]
    by_cases hname : name = first
    · rw [if_pos hname]
      exact List.pairwise_cons.2 ⟨hname ▸ hfirst, hrest⟩
    · rw [if_neg hname]
      refine List.pairwise_cons.2 ⟨?_, pairwise_names_insert hrest⟩
      intro other hother
      -- the new name is neither less than the first one nor equal to it
      rcases mem_names_insert hother with rfl | hother
      · refine Decidable.byContradiction fun hle => hname ?_
        exact String.le_antisymm (String.not_lt.1 hle) (String.not_lt.1 hlt)
      · exact hfirst other hother

/-- **Setting a field keeps the order**, also of the maps inside. -/
theorem ordered_insert {fields : Fields} (hfields : fields.Ordered) (hvalue : value.Ordered) :
    (fields.insert name value).Ordered := by
  obtain ⟨hnames, hvalues⟩ := ordered_iff.1 hfields
  refine ordered_iff.2 ⟨pairwise_names_insert hnames, ?_⟩
  intro entry hentry
  rcases mem_toList_insert hentry with rfl | hentry
  · exact hvalue
  · exact hvalues entry hentry

/-! ### Equality -/

/-- A name that has a value is none of the names before the first one. -/
theorem first_le_of_get? {rest : Fields} {old : Value}
    (h : ((Fields.cons other old rest).names).Pairwise (· < ·))
    (hvalue : (Fields.cons other old rest).get? name = some value) : ¬ name < other := by
  intro hlt
  rcases List.mem_cons.1 (mem_names_iff.2 ⟨value, hvalue⟩) with rfl | hmem
  · exact String.lt_irrefl name hlt
  · exact String.lt_asymm hlt ((List.pairwise_cons.1 h).1 name hmem)

/-- **Chains in order are equal when all names have the same values.** -/
theorem eq_of_get?_eq : ∀ {fields others : Fields}, fields.names.Pairwise (· < ·) →
    others.names.Pairwise (· < ·) → (∀ name, fields.get? name = others.get? name) →
    fields = others
  | .nil, .nil, _, _, _ => rfl
  | .nil, .cons first old rest, _, _, h => by
    have hfirst := h first
    rw [get?, get?, if_pos rfl] at hfirst
    cases hfirst
  | .cons first old rest, .nil, _, _, h => by
    have hfirst := h first
    rw [get?, get?, if_pos rfl] at hfirst
    cases hfirst
  | .cons first old rest, .cons other value others, hfields, hothers, h => by
    have hold : (Fields.cons first old rest).get? first = some old := if_pos rfl
    have hvalue : (Fields.cons other value others).get? other = some value := if_pos rfl
    -- the first name of either chain has a value in the other one
    obtain rfl : first = other := String.le_antisymm
      (String.not_lt.1 (first_le_of_get? hfields ((h other).trans hvalue)))
      (String.not_lt.1 (first_le_of_get? hothers ((h first).symm.trans hold)))
    obtain rfl : old = value := Option.some_inj.1 (hold.symm.trans ((h first).trans hvalue))
    obtain ⟨hfirst, hrest⟩ := List.pairwise_cons.1 hfields
    obtain ⟨hfirst', hrest'⟩ := List.pairwise_cons.1 hothers
    have habsent : ∀ {chain : Fields}, (∀ name ∈ chain.names, first < name) →
        chain.get? first = none := by
      intro chain hchain
      refine Option.eq_none_iff_forall_ne_some.2 fun value hvalue => ?_
      exact String.lt_irrefl first (hchain first (mem_names_iff.2 ⟨value, hvalue⟩))
    refine congrArg _ (eq_of_get?_eq hrest hrest' fun name => ?_)
    by_cases hname : name = first
    · rw [hname, habsent hfirst, habsent hfirst']
    · have hget := h name
      rwa [get?, get?, if_neg hname, if_neg hname] at hget

/-! ### Parts that may be missing -/

/-- Fields for those of some parts that are present. -/
def ofPresent : List (String × Option Value) → Fields
  | [] => nil
  | (_, none) :: parts => ofPresent parts
  | (name, some value) :: parts => (ofPresent parts).insert name value

@[simp] theorem get?_ofPresent_nil : (ofPresent []).get? name = none := rfl

/-- Of several parts with the same name the first one that is present counts. -/
@[simp] theorem get?_ofPresent_cons {part : Option Value} {parts : List (String × Option Value)} :
    (ofPresent ((other, part) :: parts)).get? name =
      if name = other then part.or ((ofPresent parts).get? name)
      else (ofPresent parts).get? name := by
  cases part with
  | none =>
    rw [ofPresent, Option.none_or]
    split <;> rfl
  | some value =>
    rw [ofPresent, Option.some_or]
    split
    · rename_i hname
      rw [hname, get?_insert_self]
    · rename_i hname
      exact get?_insert_of_ne _ value hname

theorem ordered_ofPresent {parts : List (String × Option Value)}
    (h : ∀ part ∈ parts, ∀ value, part.2 = some value → value.Ordered) :
    (ofPresent parts).Ordered := by
  induction parts with
  | nil => trivial
  | cons part parts ih =>
    obtain ⟨hpart, hparts⟩ := List.forall_mem_cons.1 h
    obtain ⟨name, found⟩ := part
    cases found with
    | none => exact ih hparts
    | some value => exact ordered_insert (ih hparts) (hpart value rfl)

end Fields

end SpokenDate
