/-
Field maps are finite maps.

However a map came about, nothing of its history is left in it but the value that each name was
given last.  Its chain lists the names once each and in order, so two maps that give the same
values are the same chain.

* **`Edit.entries`**, **`Edit.record`**, **`Fields.written`**: what an edit brings in, and what a
  history has set since it last started over;
* **`build_eq_ofList`**: a history comes to what collecting its entries comes to;
* **`get?_ofList`**: of several entries with a name the last one counts;
* **`pairwise_names_build`**, **`ordered_build`**: the names are in order, also in the maps inside;
* **`build_eq_build_iff`**: two histories come to the same map exactly when they give every name
  the same value;
* **`lookup_reverse_perm`**: when names are distinct, the order of the entries does not matter;
* **`build_is_ordered_map`**: all of it, with the order that of the bytes of the names.
-/
import Mathlib.Data.List.Induction
import SpokenDate.Fields.Edit
import SpokenDate.Proofs.ByteOrder
import SpokenDate.Proofs.Ordered

namespace SpokenDate

namespace Edit

/-- The edit that sets an entry. -/
def set (entry : String × Value) : Edit := .insert entry.1 entry.2

/-- The entries that come with an edit. -/
def entries : Edit → List (String × Value)
  | .insert name value => [(name, value)]
  | .collect entries => entries
  | .clear => []
  | .wrap _ => []

/-- The entries after one more edit, the latest last. -/
def record (written : List (String × Value)) : Edit → List (String × Value)
  | .insert name value => written ++ [(name, value)]
  | .collect entries => entries
  | .clear => []
  | .wrap name => [(name, .map (.ofList written))]

end Edit

namespace Fields

variable {name : String} {entries permuted : List (String × Value)} {edits others : List Edit}

/-- What a history has set since it last started over, the latest last. -/
def written (edits : List Edit) : List (String × Value) := edits.foldl Edit.record []

/-! ### Histories and entries -/

theorem ofList_concat (entries : List (String × Value)) (name : String) (value : Value) :
    ofList (entries ++ [(name, value)]) = (ofList entries).insert name value :=
  List.foldl_append

/-- What setting any of the entries keeps holds of the map that collects them. -/
theorem ofList_induction {motive : Fields → Prop} (hnil : motive .nil)
    (hinsert : ∀ fields, motive fields →
      ∀ entry ∈ entries, motive (fields.insert entry.1 entry.2)) :
    motive (ofList entries) := by
  induction entries using List.reverseRecOn with
  | nil => exact hnil
  | append_singleton entries entry ih =>
    rw [ofList_concat]
    refine hinsert _ (ih fun fields hfields entry hentry => ?_) entry ?_
    · exact hinsert fields hfields entry (List.mem_append_left _ hentry)
    · exact List.mem_append_right _ List.mem_cons_self

/-- One more edit. -/
theorem edit_ofList (written : List (String × Value)) (edit : Edit) :
    (ofList written).edit edit = ofList (edit.record written) := by
  cases edit with
  | insert name value => exact (ofList_concat written name value).symm
  | _ => rfl

/-- **A history comes to what collecting its entries comes to.** -/
theorem build_eq_ofList (edits : List Edit) : build edits = ofList (written edits) := by
  have hfold : ∀ start, edits.foldl edit (ofList start) = ofList (edits.foldl Edit.record start) := by
    induction edits with
    | nil => exact fun _ => rfl
    | cons first edits ih =>
      intro start
      rw [List.foldl_cons, edit_ofList, ih, List.foldl_cons]
  exact hfold []

theorem written_append_set (edits : List Edit) (entries : List (String × Value)) :
    written (edits ++ entries.map Edit.set) = written edits ++ entries := by
  induction entries generalizing edits with
  | nil => simp
  | cons entry entries ih =>
    have hstep : written (edits ++ [Edit.set entry]) = written edits ++ [entry] :=
      List.foldl_append
    rw [List.map_cons, List.append_cons, ih, hstep, List.append_assoc, List.singleton_append]

theorem written_append_collect (edits : List Edit) (entries : List (String × Value)) :
    written (edits ++ [.collect entries]) = entries :=
  List.foldl_append

/-! ### Values and names -/

/-- **Of several entries with a name the last one counts.** -/
theorem get?_ofList (entries : List (String × Value)) (name : String) :
    (ofList entries).get? name = entries.reverse.lookup name := by
  induction entries using List.reverseRecOn with
  | nil => rfl
  | append_singleton entries entry ih =>
    obtain ⟨last, value⟩ := entry
    rw [ofList_concat, List.reverse_concat, List.lookup_cons]
    by_cases h : name = last
    · rw [h, get?_insert_self, beq_self_eq_true]
    · rw [get?_insert_of_ne _ _ h, ih, beq_eq_false_iff_ne.2 h]

theorem get?_build (edits : List Edit) (name : String) :
    (build edits).get? name = (written edits).reverse.lookup name := by
  rw [build_eq_ofList, get?_ofList]

/-- A history gives values to the names that it has set. -/
theorem exists_get?_build_iff :
    (∃ value, (build edits).get? name = some value) ↔ name ∈ (written edits).map Prod.fst := by
  rw [get?_build, ← Option.isSome_iff_exists, List.lookup_isSome_iff, List.mem_map]
  refine exists_congr fun entry => and_congr List.mem_reverse ?_
  rw [beq_iff_eq, eq_comm]

theorem isEmpty_build_iff : (build edits).isEmpty = true ↔ written edits = [] := by
  rw [isEmpty_iff]
  constructor
  · intro h
    refine List.eq_nil_iff_forall_not_mem.2 fun entry hentry => ?_
    obtain ⟨value, hvalue⟩ := exists_get?_build_iff.2 (List.mem_map_of_mem hentry)
    rw [h] at hvalue
    cases hvalue
  · intro h name
    rw [get?_build, h]
    rfl

/-! ### The order of the names -/

/-- One more edit keeps the order, given that of the values that come with it. -/
theorem ordered_edit {fields : Fields} {edit : Edit} (hfields : fields.Ordered)
    (hvalues : ∀ entry ∈ edit.entries, entry.2.Ordered) : (fields.edit edit).Ordered := by
  cases edit with
  | insert name value => exact ordered_insert hfields (hvalues (name, value) List.mem_cons_self)
  | clear => trivial
  | wrap name => exact ⟨hfields, nofun, trivial⟩
  | collect entries =>
    refine ofList_induction trivial fun fields hfields entry hentry => ?_
    exact ordered_insert hfields (hvalues entry hentry)

/-- **A history of values in order leads to a map in order**, in all maps inside it as well. -/
theorem ordered_build (h : ∀ edit ∈ edits, ∀ entry ∈ edit.entries, entry.2.Ordered) :
    (build edits).Ordered := by
  induction edits using List.reverseRecOn with
  | nil => trivial
  | append_singleton edits edit ih =>
    rw [build_append]
    refine ordered_edit (ih fun edit hedit => ?_) ?_
    · exact h edit (List.mem_append_left _ hedit)
    · exact h edit (List.mem_append_right _ List.mem_cons_self)

/-- **The names are in order after every history**, whatever the values are. -/
theorem pairwise_names_build (edits : List Edit) : (build edits).names.Pairwise (· < ·) := by
  rw [build_eq_ofList]
  refine ofList_induction (motive := fun fields => fields.names.Pairwise (· < ·)) .nil ?_
  intro fields hfields entry _
  exact pairwise_names_insert hfields

theorem count_names_build (edits : List Edit) (name : String) :
    (build edits).names.count name = if name ∈ (written edits).map Prod.fst then 1 else 0 := by
  have hnodup : (build edits).names.Nodup := by
    refine (pairwise_names_build edits).imp ?_
    rintro first _ hlt rfl
    exact String.lt_irrefl first hlt
  rw [hnodup.count]
  exact if_congr (mem_names_iff.trans exists_get?_build_iff) rfl rfl

/-! ### Equality and rearrangement -/

/-- **Two histories come to the same map exactly when they give every name the same value.** -/
theorem build_eq_build_iff :
    build edits = build others ↔ ∀ name, (build edits).get? name = (build others).get? name := by
  constructor
  · intro h name
    rw [h]
  · exact eq_of_get?_eq (pairwise_names_build edits) (pairwise_names_build others)

/-- An entry is found by its name when names are distinct. -/
theorem lookup_eq_some_iff_mem (h : (entries.map Prod.fst).Nodup) {value : Value} :
    entries.lookup name = some value ↔ (name, value) ∈ entries := by
  induction entries with
  | nil => simp
  | cons entry entries ih =>
    obtain ⟨first, old⟩ := entry
    obtain ⟨hfirst, hrest⟩ := List.nodup_cons.1 h
    rw [List.lookup_cons, List.mem_cons, Prod.mk.injEq]
    by_cases hname : name = first
    · have hnot : (name, value) ∉ entries := fun hmem =>
        hfirst (List.mem_map.2 ⟨(name, value), hmem, hname⟩)
      rw [or_iff_left hnot, beq_iff_eq.2 hname, Option.some_inj, and_iff_right hname, eq_comm]
    · rw [beq_eq_false_iff_ne.2 hname, ih hrest, or_iff_right fun heq => hname heq.1]

/-- **When names are distinct, the order of the entries does not matter.** -/
theorem lookup_reverse_perm (hperm : entries.Perm permuted) (h : (entries.map Prod.fst).Nodup) :
    entries.reverse.lookup name = permuted.reverse.lookup name := by
  have hrev : entries.reverse.Perm permuted.reverse :=
    (entries.reverse_perm.trans hperm).trans permuted.reverse_perm.symm
  have hentries : (entries.reverse.map Prod.fst).Nodup :=
    ((entries.reverse_perm.map Prod.fst).nodup_iff).2 h
  refine Option.ext fun value => ?_
  rw [lookup_eq_some_iff_mem hentries, hrev.mem_iff,
    lookup_eq_some_iff_mem (((hrev.map Prod.fst).nodup_iff).1 hentries)]

/-- Collecting rearranged entries, and setting them one by one, leads to the same map. -/
theorem build_append_perm (edits : List Edit) (hperm : entries.Perm permuted)
    (h : (entries.map Prod.fst).Nodup) :
    build (edits ++ entries.map Edit.set) = build (edits ++ permuted.map Edit.set) ∧
      build (edits ++ [.collect entries]) = build (edits ++ [.collect permuted]) := by
  constructor
  · refine build_eq_build_iff.2 fun name => ?_
    rw [get?_build, get?_build, written_append_set, written_append_set, List.reverse_append,
      List.reverse_append, List.lookup_append, List.lookup_append, lookup_reverse_perm hperm h]
  · refine build_eq_build_iff.2 fun name => ?_
    rw [get?_build, get?_build, written_append_collect, written_append_collect,
      lookup_reverse_perm hperm h]

/-! ### Finite maps -/

/-- **A map is the finite map of what was set last, ordered by the bytes of the names.**

It lists the names that its history has set once each and in order, and has for each of them the
value that was set last; it is empty when nothing was set.  Two histories lead to equal maps
exactly when they give every name the same value, so entries with distinct names may come in any
order.  When the values come with their own maps in order, all maps inside are in order, too. -/
theorem build_is_ordered_map (edits : List Edit) :
    (build edits).names.Pairwise (fun first second => utf8 first < utf8 second) ∧
    (∀ name, (build edits).names.count name =
      if name ∈ (written edits).map Prod.fst then 1 else 0) ∧
    (∀ name, (build edits).get? name = (written edits).reverse.lookup name) ∧
    (∀ name, (build edits).contains name = true ↔
      ∃ value, (build edits).get? name = some value) ∧
    ((build edits).isEmpty = true ↔ written edits = []) ∧
    (∀ others, (build edits == build others) = true ↔
      ∀ name, (build edits).get? name = (build others).get? name) ∧
    (∀ entries permuted : List (String × Value), entries.Perm permuted →
      (entries.map Prod.fst).Nodup →
      build (edits ++ entries.map Edit.set) = build (edits ++ permuted.map Edit.set) ∧
      build (edits ++ [.collect entries]) = build (edits ++ [.collect permuted])) ∧
    ((∀ edit ∈ edits, ∀ entry ∈ edit.entries, entry.2.Ordered) → (build edits).Ordered) :=
  ⟨(pairwise_names_build edits).imp lt_iff_utf8_lt.1, count_names_build edits, get?_build edits,
    fun _ => contains_iff, isEmpty_build_iff, fun _ => beq_iff_eq.trans build_eq_build_iff,
    fun _ _ hperm h => build_append_perm edits hperm h, ordered_build⟩

/-- A field is set twice, then two more in either order.  The names begin with the bytes `0x64`,
`0xef` and `0xf0`; in units of sixteen bits the last two would stand the other way round. -/
theorem build_is_ordered_map_threeScripts :
    build ([.insert "day" (.integer 3), .insert "day" (.integer 4)] ++
        [Edit.set ("😀", .flag true), Edit.set ("ﬁ", .map .nil)]) =
      build ([.insert "day" (.integer 3), .insert "day" (.integer 4)] ++
        [Edit.set ("ﬁ", .map .nil), Edit.set ("😀", .flag true)]) ∧
    (build [.insert "day" (.integer 3), .insert "day" (.integer 4), .insert "😀" (.flag true),
        .insert "ﬁ" (.map .nil)]).Ordered ∧
    ["day", "ﬁ", "😀"].Pairwise (fun first second => utf8 first < utf8 second) := by
  obtain ⟨-, -, -, -, -, -, hperm, -⟩ :=
    build_is_ordered_map [.insert "day" (.integer 3), .insert "day" (.integer 4)]
  obtain ⟨hnames, -, -, -, -, -, -, hordered⟩ :=
    build_is_ordered_map [.insert "day" (.integer 3), .insert "day" (.integer 4),
      .insert "😀" (.flag true), .insert "ﬁ" (.map .nil)]
  refine ⟨?_, hordered ?_, hnames⟩
  · exact (hperm [("😀", .flag true), ("ﬁ", .map .nil)] [("ﬁ", .map .nil), ("😀", .flag true)]
      (.swap _ _ []) (by decide)).1
  · simp [Edit.entries, Value.Ordered, Fields.Ordered]

end Fields

end SpokenDate
