import Mathlib.Data.List.Sort
import Scriptlet.Proofs.Store.Handles
import Scriptlet.Proofs.Text.Quoted

/-!
# What a scope looks like is what it binds

A scope is described by the names that it binds itself and by how deep it is. The names stand in the
order of their characters, so nothing can be seen of the order in which they were bound, of how
often, through which handles, and whether by a definition or by an assignment. All else can be
seen: names are put between quotation marks, so two scopes are described alike only if they bind the
same names and are equally deep.

Which names a scope binds is said in two ways, by the store at the end and by what was done. A
definition through a handle of the scope adds a name, and so does an assignment, if the name had no
value there at that time; nothing else adds one and nothing takes one away.

## Main definitions

* `Text.codes` — the numbers of the characters of a text
* `Handles.Adds`, `Handles.Bound` — the names that were bound in a scope, told from what was done

## Main results

* `Store.mem_names`, `Store.pairwise_names` — the names that are listed, and their order
* `Store.listing_inj` — a description tells the names and the depth
* `Handles.binds_iff` — a scope binds what was bound in it
* `listing_canonical` — all of it together
-/

namespace Scriptlet

/-! ## The order of names -/

namespace Text

/-- The numbers of the characters of a text. -/
def codes (text : String) : List Nat := text.toList.map Char.toNat

theorem map_toNat_lt_iff (first second : List Char) :
    first.map Char.toNat < second.map Char.toNat ↔ first < second := by
  induction first generalizing second with
  | nil => cases second <;> simp
  | cons c first ih =>
    cases second with
    | nil => simp
    | cons d second =>
      rw [List.map_cons, List.map_cons, List.cons_lt_cons_iff, List.cons_lt_cons_iff, ih,
        Char.toNat_inj]
      rfl

theorem codes_lt_iff {first second : String} : codes first < codes second ↔ first < second := by
  rw [codes, codes, map_toNat_lt_iff, String.lt_iff]

end Text

namespace Store

/-- The names that are listed are those that the scope binds. -/
theorem mem_names {store : Store} {id : ScopeId} {name : String} :
    name ∈ store.names id ↔ store.binds id name = true := by
  unfold names binds binding?
  cases store.scope? id with
  | none => simp
  | some scope =>
    rw [Option.map_some, Option.getD_some, Option.bind_some, Std.TreeMap.mem_keys,
      Std.TreeMap.isSome_getElem?_iff_mem]

theorem pairwise_names (store : Store) (id : ScopeId) : (store.names id).Pairwise (· < ·) := by
  unfold names
  cases store.scope? id with
  | none => exact .nil
  | some scope =>
    have hkeys := scope.bindings.ordered_keys
    exact hkeys.imp fun hlt => compareOfLessAndEq_eq_lt.mp hlt

/-- Names in increasing order are each there once. -/
theorem nodup_names (store : Store) (id : ScopeId) : (store.names id).Nodup := by
  refine (store.pairwise_names id).imp fun {first second} hlt heq => ?_
  exact String.lt_irrefl first (heq ▸ hlt)

/-- **The names that are listed are told from what is bound.** -/
theorem names_eq_iff {store other : Store} {id away : ScopeId} :
    store.names id = other.names away ↔
      ∀ name, store.binds id name = true ↔ other.binds away name = true := by
  constructor
  · intro h name
    rw [← mem_names, ← mem_names, h]
  · intro h
    refine (store.pairwise_names id).eq_of_mem_iff (other.pairwise_names away) fun name => ?_
    rw [mem_names, mem_names, h]

/-- **Names are listed as they are sorted**, in whatever order they were kept. -/
theorem mergeSort_eq_names {store : Store} {id : ScopeId} {kept : List String} (hnodup : kept.Nodup)
    (h : ∀ name, name ∈ kept ↔ store.binds id name = true) : kept.mergeSort = store.names id := by
  have hsorted : kept.mergeSort.Pairwise (· ≤ ·) := by
    refine (List.pairwise_mergeSort (fun _ _ _ hab hbc => ?_) (fun a b => ?_) kept).imp
      of_decide_eq_true
    · exact decide_eq_true (String.le_trans (of_decide_eq_true hab) (of_decide_eq_true hbc))
    · simpa using String.le_total a b
  have hnames : (store.names id).Pairwise (· ≤ ·) :=
    (store.pairwise_names id).imp fun hlt => String.lt_asymm hlt
  have hperm : kept.Perm (store.names id) :=
    (List.perm_ext_iff_of_nodup hnodup (store.nodup_names id)).mpr fun name => by
      rw [h, mem_names]
  exact ((kept.mergeSort_perm _).trans hperm).eq_of_pairwise
    (fun _ _ _ _ => String.le_antisymm) hsorted hnames

/-! ## Descriptions -/

/-- A list of texts with commas between them. -/
theorem toList_intercalate_cons (first : String) (names : List String) :
    (", ".intercalate (first :: names)).toList =
      first.toList ++ names.flatMap fun name => ',' :: ' ' :: name.toList := by
  rw [String.toList_intercalate]
  induction names generalizing first with
  | nil => simp
  | cons second names ih =>
    rw [List.map_cons, List.map_cons, List.intercalate_cons_cons, ← List.map_cons, ih]
    simp

/-- The names after the first can be told, whatever follows the bracket. -/
theorem flatMap_quoted_inj {names others : List String} {rest behind : List Char}
    (h : (names.flatMap fun name => ',' :: ' ' :: (Text.quoted name).toList) ++ ']' :: rest =
      (others.flatMap fun name => ',' :: ' ' :: (Text.quoted name).toList) ++ ']' :: behind) :
    names = others ∧ rest = behind := by
  induction names generalizing others with
  | nil =>
    cases others with
    | nil => exact ⟨rfl, (List.cons.inj h).2⟩
    | cons => exact absurd (List.cons.inj h).1 (by decide)
  | cons name names ih =>
    cases others with
    | nil => exact absurd (List.cons.inj h).1 (by decide)
    | cons other others =>
      rw [List.flatMap_cons, List.flatMap_cons, List.append_assoc, List.append_assoc] at h
      obtain ⟨rfl, htail⟩ := Text.quoted_append_inj (List.cons.inj (List.cons.inj h).2).2
      obtain ⟨rfl, hrest⟩ := ih htail
      exact ⟨rfl, hrest⟩

/-- All names can be told, whatever follows the bracket. -/
theorem intercalate_quoted_inj {names others : List String} {rest behind : List Char}
    (h : (", ".intercalate (names.map Text.quoted)).toList ++ ']' :: rest =
      (", ".intercalate (others.map Text.quoted)).toList ++ ']' :: behind) :
    names = others ∧ rest = behind := by
  have hquote {name : String} {front behind rest : List Char} :
      ']' :: rest ≠ (Text.quoted name).toList ++ front ++ behind := by
    rw [Text.toList_quoted]
    intro heq
    exact absurd (List.cons.inj heq).1 (by decide)
  cases names with
  | nil =>
    cases others with
    | nil => exact ⟨rfl, (List.cons.inj h).2⟩
    | cons other others =>
      rw [List.map_cons, toList_intercalate_cons] at h
      exact absurd h hquote
  | cons name names =>
    rw [List.map_cons, toList_intercalate_cons] at h
    cases others with
    | nil => exact absurd h.symm hquote
    | cons other others =>
      rw [List.map_cons, toList_intercalate_cons, List.append_assoc, List.append_assoc] at h
      obtain ⟨rfl, htail⟩ := Text.quoted_append_inj h
      rw [List.flatMap_map, List.flatMap_map] at htail
      obtain ⟨rfl, hrest⟩ := flatMap_quoted_inj htail
      exact ⟨rfl, hrest⟩

/-- **A description tells the names and the depth.** -/
theorem listing_inj {names others : List String} {depth height : Nat} :
    listing names depth = listing others height ↔ names = others ∧ depth = height := by
  constructor
  · intro h
    have hlist := congrArg String.toList h
    unfold listing at hlist
    simp only [String.toList_append, String.reduceToList, List.append_assoc] at hlist
    obtain ⟨hnames, hrest⟩ := intercalate_quoted_inj (List.append_cancel_left hlist)
    have hdigits := List.append_cancel_right (List.append_cancel_left hrest)
    exact ⟨hnames, Text.toString_nat_injective (String.toList_injective hdigits)⟩
  · rintro ⟨rfl, rfl⟩
    rfl

theorem describe_eq_iff {store other : Store} {id away : ScopeId} :
    store.describe id = other.describe away ↔
      (∀ name, store.binds id name = true ↔ other.binds away name = true) ∧
        store.depth id = other.depth away := by
  rw [describe, describe, listing_inj, names_eq_iff]

/-! ## What is bound by one thing that is done -/

/-- Nothing is bound by opening a scope. -/
theorem binds_add (store : Store) (enclosing? : Option ScopeId) (id : ScopeId) (name : String) :
    (store.add enclosing?).2.binds id name = store.binds id name := by
  unfold binds binding?
  rw [scope?_add]
  split
  · next hid => simp [hid, scope?_add_fst]
  · rfl

/-- **An assignment adds a name** to the scope it starts from, if the name has no value there. -/
theorem Grounded.binds_assign {store : Store} (h : store.Grounded) {start id : ScopeId}
    (hstart : store.Present start) {name wanted : String} {value : Value} :
    (store.assign start name value).binds id wanted = true ↔
      store.binds id wanted = true ∨
        start = id ∧ name = wanted ∧ store.get? id wanted = none := by
  obtain ⟨passed, found?, hwalk⟩ := h.exists_walk (fun id => store.binds id name = true) hstart
  have hget := hwalk.get?_eq h
  rw [assign, hwalk.target_eq h, binds_define]
  refine or_congr_right' fun hbinds => ?_
  cases found? with
  | none =>
    constructor
    · rintro ⟨_, rfl, rfl⟩
      exact ⟨rfl, rfl, hget⟩
    · rintro ⟨rfl, rfl, _⟩
      exact ⟨hstart, rfl, rfl⟩
  | some found =>
    have hfound := hwalk.wanted_of_eq rfl
    constructor
    · rintro ⟨_, rfl, rfl⟩
      exact absurd hfound hbinds
    · rintro ⟨rfl, rfl, hnone⟩
      rw [hget, Option.bind_some] at hnone
      simp [binds, hnone] at hfound

end Store

namespace Handles

/-- What is done adds a name to a scope. -/
def Adds (id : ScopeId) (name : String) (handles : Handles) : HandleOp → Prop
  | .define handle bound _ => handles.scopes[handle]? = some id ∧ bound = name
  | .assign handle bound _ =>
    handles.scopes[handle]? = some id ∧ bound = name ∧ handles.store.get? id name = none
  | .new | .enclosed _ | .clone _ => False

/-- A name was bound in a scope by something that was done. -/
def Bound (ops : List HandleOp) (id : ScopeId) (name : String) : Prop :=
  Happened (Adds id name) ops

/-- What is done to the scope of a handle adds a name to this scope or to none. -/
theorem Valid.binds_through {handles : Handles} (h : handles.Valid) {id : ScopeId} {name : String}
    {action : ScopeId → Handles} {adds : Prop}
    (hadds : ∀ scope, handles.store.Present scope →
      ((action scope).store.binds id name = true ↔
        handles.store.binds id name = true ∨ scope = id ∧ adds)) (handle : Nat) :
    (handles.through handle action).store.binds id name = true ↔
      handles.store.binds id name = true ∨ handles.scopes[handle]? = some id ∧ adds := by
  unfold through
  cases hhandle : handles.scopes[handle]? with
  | none => simp
  | some scope => simpa using hadds scope (h scope (List.mem_of_getElem? hhandle))

/-- **What is done binds what it adds**, and leaves bound what was. -/
theorem Valid.binds_apply {handles : Handles} (h : handles.Valid)
    (hgrounded : handles.store.Grounded) (op : HandleOp) (id : ScopeId) (name : String) :
    (op.apply handles).store.binds id name = true ↔
      handles.store.binds id name = true ∨ Adds id name handles op := by
  have hadd (enclosing? : Option ScopeId) :
      (handles.push (handles.store.add enclosing?)).store.binds id name = true ↔
        handles.store.binds id name = true :=
    iff_of_eq (congrArg (· = true) (handles.store.binds_add enclosing? id name))
  have hthrough (handle : Nat) (action : ScopeId → Handles)
      (hsame : ∀ scope, (action scope).store.binds id name = true ↔
        handles.store.binds id name = true) :
      (handles.through handle action).store.binds id name = true ↔
        handles.store.binds id name = true :=
    @through_cases handles (fun after => after.store.binds id name = true ↔ _) action .rfl
      (fun scope _ => hsame scope) handle
  cases op with
  | new => exact (hadd none).trans (or_iff_left not_false).symm
  | enclosed handle =>
    exact (hthrough handle _ fun outer => hadd (some outer)).trans (or_iff_left not_false).symm
  | clone handle =>
    have hclone := hthrough handle (fun scope => handles.push (scope, handles.store)) fun _ => .rfl
    exact hclone.trans (or_iff_left not_false).symm
  | define handle bound value =>
    refine h.binds_through (fun scope hscope => ?_) handle
    rw [Store.binds_define]
    exact or_congr_right ⟨fun hnew => hnew.2, fun hnew => ⟨hnew.1 ▸ hscope, hnew⟩⟩
  | assign handle bound value =>
    exact h.binds_through (fun scope hscope => hgrounded.binds_assign hscope) handle

/-- **A scope binds what was bound in it.** -/
theorem binds_iff (ops : List HandleOp) (id : ScopeId) (name : String) :
    (after ops).store.binds id name = true ↔ Bound ops id name := by
  induction ops using List.reverseRecOn with
  | nil => simp [after, Bound, Happened, Store.binds, Store.binding?, Store.scope?]
  | append_singleton ops op ih =>
    obtain ⟨hvalid, hreachable⟩ := valid_after ops
    rw [after_concat, hvalid.binds_apply hreachable.grounded, ih]
    exact (happened_concat _ ops op).symm

end Handles

/-! ## All that is done -/

/-- The names that stand for what a scope binds, given which names were bound in it. -/
structure Store.Lists (store : Store) (id : ScopeId) (bound : String → Prop)
    (names : List String) : Prop where
  /-- The names stand in the order of their characters. -/
  increasing : names.Pairwise fun first second => Text.codes first < Text.codes second
  /-- No name stands there twice. -/
  once : names.Nodup
  /-- They are the names that the scope binds itself. -/
  binds : ∀ name, name ∈ names ↔ store.binds id name = true
  /-- They are the names that were bound in it. -/
  members : ∀ name, name ∈ names ↔ bound name
  /-- They are what comes of sorting these, in whatever order they are kept. -/
  sorted : ∀ kept : List String, kept.Nodup → (∀ name, name ∈ kept ↔ bound name) →
    kept.mergeSort = names

theorem Store.lists_names {store : Store} {id : ScopeId} {bound : String → Prop}
    (h : ∀ name, store.binds id name = true ↔ bound name) :
    store.Lists id bound (store.names id) where
  increasing := (store.pairwise_names id).imp Text.codes_lt_iff.mpr
  once := store.nodup_names id
  binds _ := mem_names
  members name := mem_names.trans (h name)
  sorted _ hnodup hkept := mergeSort_eq_names hnodup fun name => (hkept name).trans (h name).symm

/-- **What a scope looks like is what it binds.** Whatever was done with handles, the scope of a
handle is described by the names bound in it, each once and in increasing order, and by the number
of scopes on the way outward. Whatever else was done elsewhere, a scope there is described by the
same text if and only if the same names were bound in it and it is equally deep. -/
theorem listing_canonical (ops : List HandleOp) (handle : Nat) (id : ScopeId)
    (hid : (Handles.after ops).scopes[handle]? = some id) :
    (∃ names passed, (Handles.after ops).store.Lists id (Handles.Bound ops id) names ∧
      (Handles.after ops).store.Walk (fun _ => False) (some id) passed none ∧
        (Handles.after ops).store.depth id = passed.length ∧
        (Handles.after ops).store.describe id =
          "Environment \x7b names: [" ++ ", ".intercalate (names.map Text.quoted) ++
            "], depth: " ++ toString passed.length ++ " \x7d") ∧
      ∀ (others : List HandleOp) (away : ScopeId),
        (Handles.after ops).store.describe id = (Handles.after others).store.describe away ↔
          (∀ name, Handles.Bound ops id name ↔ Handles.Bound others away name) ∧
            (Handles.after ops).store.depth id = (Handles.after others).store.depth away := by
  obtain ⟨hvalid, hreachable⟩ := Handles.valid_after ops
  have hgrounded := hreachable.grounded
  constructor
  · obtain ⟨passed, found?, hwalk⟩ :=
      hgrounded.exists_walk (fun _ => False) (hvalid id (List.mem_of_getElem? hid))
    obtain ⟨rfl, hdepth⟩ := hwalk.depth_eq hgrounded
    refine ⟨_, passed, Store.lists_names (Handles.binds_iff ops id), hwalk, hdepth, ?_⟩
    unfold Store.describe Store.listing
    rw [hdepth]
  · intro others away
    rw [Store.describe_eq_iff]
    simp only [Handles.binds_iff]

namespace Sample

/-- Two names are bound, one after the other. -/
def brief : List HandleOp := [.new, .define 0 "b" .absent, .define 0 "a" .absent]

/-- The same names are bound in other ways, in another order and more than once, and another name
elsewhere. -/
def lengthy : List HandleOp :=
  [.new, .clone 0, .assign 1 "a" (.integer 1), .enclosed 0, .define 2 "c" .absent,
    .define 1 "b" .absent, .assign 2 "a" (.integer 2), .define 0 "a" .absent]

theorem brief_lengthy_alike : (Handles.after brief).scopes[0]? = some 0 ∧
    (Handles.after lengthy).store.describe 0 =
      "Environment \x7b names: [\"a\", \"b\"], depth: 1 \x7d" ∧
    (Handles.after brief).store.describe 0 = (Handles.after lengthy).store.describe 0 ∧
    ∀ name, Handles.Bound brief 0 name ↔ Handles.Bound lengthy 0 name := by
  have hid : (Handles.after brief).scopes[0]? = some 0 := by decide +kernel
  have halike :
      (Handles.after brief).store.describe 0 = (Handles.after lengthy).store.describe 0 := by
    decide +kernel
  obtain ⟨_, hlisting⟩ := listing_canonical brief 0 0 hid
  exact ⟨hid, by decide +kernel, halike, ((hlisting lengthy 0).mp halike).1⟩

end Sample

end Scriptlet
