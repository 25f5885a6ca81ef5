import Mathlib.Data.List.Nodup
import Mathlib.Algebra.Order.Ring.Int

/-!
# Tables with a primary key

A table is the list of its rows together with the proof that no two rows share a primary key.
`put` replaces the row with the same key or appends a new one, and `erase` takes a row out, so a
table with two rows under one key cannot be built.
-/

namespace Foundation

open List

structure Table {ρ κ : Type} (key : ρ → κ) where
  rows : List ρ
  nodup : (rows.map key).Nodup

namespace Table

variable {ρ κ : Type} [DecidableEq κ] {key : ρ → κ}

def empty : Table key := ⟨[], by simp⟩

/-- Replaces the row with `row`'s key, or appends `row` when there is none. -/
def upsert (key : ρ → κ) (row : ρ) : List ρ → List ρ
  | [] => [row]
  | r :: rs => if key r = key row then row :: rs else r :: upsert key row rs

theorem map_key_upsert (row : ρ) (rs : List ρ) :
    (upsert key row rs).map key =
      if key row ∈ rs.map key then rs.map key else rs.map key ++ [key row] := by
  induction rs with
  | nil => simp [upsert]
  | cons r rs ih =>
    by_cases same : key r = key row
    · simp [upsert, same]
    · have other : key row ≠ key r := Ne.symm same
      simp only [upsert, same, ↓reduceIte, map_cons, ih, mem_cons, other, false_or]
      split <;> rfl

def put (t : Table key) (row : ρ) : Table key where
  rows := upsert key row t.rows
  nodup := by
    rw [map_key_upsert]
    split
    · exact t.nodup
    next absent =>
      exact List.nodup_append.mpr ⟨t.nodup, by simp, by
        intro a member b single same
        rw [List.mem_singleton] at single
        exact absent (single ▸ same ▸ member)⟩

def erase (t : Table key) (k : κ) : Table key where
  rows := t.rows.filter fun r => key r ≠ k
  nodup := t.nodup.sublist (List.filter_sublist.map key)

def find? (t : Table key) (k : κ) : Option ρ := t.rows.find? (fun r => key r = k)

/-- What `UPDATE … SET f WHERE p` makes of one row. -/
def updateWhere (p : ρ → Bool) (f : ρ → ρ) (row : ρ) : ρ := if p row then f row else row

/-- `UPDATE … SET f WHERE p`, as the rows it writes. -/
def updated (t : Table key) (p : ρ → Bool) (f : ρ → ρ) : List ρ := (t.rows.filter p).map f

variable {k : κ} {row r : ρ} {t : Table key} {p : ρ → Bool} {rs : List ρ} {f : ρ → ρ}

theorem key_of_find? (found : t.find? k = some row) : key row = k := by
  simpa using find?_some found

theorem mem_of_find? (found : t.find? k = some row) : row ∈ t.rows :=
  mem_of_find?_eq_some found

theorem find?_of_mem_list (rs : List ρ) (nodup : (rs.map key).Nodup) (row : ρ)
    (member : row ∈ rs) : rs.find? (fun r => key r = key row) = some row := by
  induction rs with
  | nil => cases member
  | cons r rs ih =>
    simp only [map_cons, nodup_cons] at nodup
    rcases mem_cons.mp member with rfl | later
    · simp
    · have other : key r ≠ key row := fun same =>
        nodup.1 (same ▸ mem_map_of_mem later)
      simpa [other] using ih nodup.2 later

theorem find?_of_mem (member : row ∈ t.rows) : t.find? (key row) = some row :=
  find?_of_mem_list t.rows t.nodup row member

theorem mem_keys_filter {p : ρ → Bool} :
    k ∈ (t.rows.filter p).map key ↔ (t.find? k).any p = true := by
  constructor
  · intro member
    obtain ⟨row, inside, rfl⟩ := mem_map.mp member
    obtain ⟨stored, holds⟩ := mem_filter.mp inside
    rw [find?_of_mem stored]
    exact holds
  · intro found
    obtain ⟨row, there, holds⟩ := Option.any_eq_true _ _ |>.mp found
    exact mem_map.mpr ⟨row, mem_filter.mpr ⟨mem_of_find? there, holds⟩, key_of_find? there⟩

theorem mem_rows_iff : row ∈ t.rows ↔ t.find? (key row) = some row :=
  ⟨find?_of_mem, mem_of_find?⟩

omit [DecidableEq κ] in
theorem eq_of_key {a b : ρ} (ha : a ∈ t.rows) (hb : b ∈ t.rows) (same : key a = key b) : a = b :=
  inj_on_of_nodup_map t.nodup ha hb same

theorem updated_key (t : Table key) (k : κ) (f : ρ → ρ) :
    t.updated (fun r => key r = k) f = ((t.find? k).map f).toList := by
  have rows : t.rows.filter (fun r => key r = k) = (t.find? k).toList := by
    cases found : t.find? k with
    | none =>
      rw [Option.toList_none, filter_eq_nil_iff]
      exact find?_eq_none.mp found
    | some row =>
      have member := mem_of_find? found
      have alone : ∀ r ∈ t.rows, key r = k ↔ r = row := by
        intro r inside
        exact ⟨fun same => eq_of_key inside member (same.trans (key_of_find? found).symm),
          fun same => same ▸ key_of_find? found⟩
      have nodup : (t.rows.filter (fun r => key r = k)).Nodup :=
        (List.Nodup.of_map key t.nodup).filter _
      apply perm_singleton.mp
      rw [perm_ext_iff_of_nodup nodup (nodup_singleton row)]
      intro r
      simp only [mem_filter, decide_eq_true_eq, mem_singleton]
      exact ⟨fun ⟨inside, key⟩ => (alone r inside).mp key,
        fun eq => eq ▸ ⟨member, key_of_find? found⟩⟩
  rw [updated, rows]
  cases t.find? k <;> rfl

@[simp] theorem find?_empty (k : κ) : (empty : Table key).find? k = none := rfl

omit [DecidableEq κ] in
@[simp] theorem rows_empty : (empty : Table key).rows = [] := rfl

theorem find?_upsert (row : ρ) (k : κ) (rs : List ρ) :
    (upsert key row rs).find? (fun r => key r = k) =
      if key row = k then some row else rs.find? (fun r => key r = k) := by
  induction rs with
  | nil => by_cases hit : key row = k <;> simp [upsert, hit]
  | cons r rs ih =>
    by_cases same : key r = key row
    · by_cases hit : key row = k <;> simp [upsert, same, hit]
    · by_cases hit : key row = k
      · have miss : key r ≠ k := fun h => same (h.trans hit.symm)
        simpa [upsert, same, miss, hit] using ih
      · by_cases head : key r = k
        · have other : k ≠ key row := Ne.symm hit
          simp [upsert, head, hit, other]
        · simpa [upsert, same, head, hit] using ih

theorem find?_put (t : Table key) (row : ρ) (k : κ) :
    (t.put row).find? k = if key row = k then some row else t.find? k :=
  find?_upsert row k t.rows

theorem find?_erase (t : Table key) (k l : κ) :
    (t.erase k).find? l = if l = k then none else t.find? l := by
  simp only [erase, find?, find?_filter]
  split
  next same =>
    subst same
    simp
  next other =>
    congr 1
    funext r
    by_cases here : key r = l
    · simp [here, other]
    · simp [here]

theorem filter_upsert (apart : p row = false) (rs : List ρ)
    (old : ∀ r ∈ rs, key r = key row → p r = false) :
    (upsert key row rs).filter p = rs.filter p := by
  induction rs with
  | nil => simp [upsert, apart]
  | cons r rs ih =>
    have rest := ih fun q member => old q (mem_cons_of_mem _ member)
    by_cases same : key r = key row
    · have gone := old r mem_cons_self same
      simp [upsert, same, apart, gone]
    · simp [upsert, same, filter_cons, rest]

/-- Rows outside `p` can be written and taken out without a change to the rows in `p`. -/
theorem filter_put (apart : p row = false) (old : ∀ r ∈ t.rows, key r = key row → p r = false) :
    (t.put row).rows.filter p = t.rows.filter p :=
  filter_upsert apart t.rows old

theorem filter_erase (old : ∀ r ∈ t.rows, key r = k → p r = false) :
    (t.erase k).rows.filter p = t.rows.filter p := by
  simp only [erase, filter_filter]
  refine filter_congr fun r member => ?_
  by_cases here : key r = k
  · simp [here, old r member here]
  · simp [here]

@[simp] theorem find?_put_self (t : Table key) (row : ρ) :
    (t.put row).find? (key row) = some row := by
  simp [find?_put]

theorem find?_put_fresh (fresh : t.find? (key row) = none) (k : κ) :
    (t.put row).find? k = (t.find? k).or ((some row).filter fun r => key r = k) := by
  rw [find?_put]
  by_cases here : key row = k
  · rw [← here, fresh]
    simp [Option.filter_some]
  · simp [here, Option.filter_some]

theorem rows_put_fresh (fresh : t.find? (key row) = none) : (t.put row).rows = t.rows ++ [row] := by
  have appended : ∀ rs : List ρ, rs.find? (fun r => key r = key row) = none →
      upsert key row rs = rs ++ [row] := by
    intro rs absent
    induction rs with
    | nil => rfl
    | cons r rs ih =>
      rw [find?_cons] at absent
      by_cases same : key r = key row
      · simp [same] at absent
      · simp only [same, decide_false] at absent
        simp [upsert, same, ih absent]
  exact appended t.rows fresh

theorem rows_put_present {old : ρ} (found : t.find? (key row) = some old) :
    (t.put row).rows = t.rows.map fun r => if key r = key row then row else r := by
  have replaced : ∀ rs : List ρ, (rs.map key).Nodup → (∃ r ∈ rs, key r = key row) →
      upsert key row rs = rs.map fun r => if key r = key row then row else r := by
    intro rs nodup present
    induction rs with
    | nil => simp at present
    | cons r rs ih =>
      simp only [map_cons, nodup_cons, mem_map, not_exists, not_and] at nodup
      by_cases same : key r = key row
      · have others : rs.map (fun r => if key r = key row then row else r) = rs := by
          conv_rhs => rw [← map_id rs]
          refine map_congr_left fun q member => ?_
          have other : key q ≠ key row := fun equal => nodup.1 q member (equal.trans same.symm)
          simp [other]
        simp [upsert, same, others]
      · obtain ⟨q, member, equal⟩ := present
        rcases mem_cons.mp member with rfl | later
        · exact absurd equal same
        · simp [upsert, same, ih nodup.2 ⟨q, later, equal⟩]
  exact replaced t.rows t.nodup ⟨old, mem_of_find? found, key_of_find? found⟩

theorem mem_put : r ∈ (t.put row).rows ↔ r = row ∨ (r ∈ t.rows ∧ key r ≠ key row) := by
  rw [mem_rows_iff, find?_put]
  by_cases same : key row = key r
  · simp only [same, ↓reduceIte, Option.some.injEq, ne_eq, not_true, and_false, or_false]
    exact eq_comm
  · have other : key r ≠ key row := Ne.symm same
    simp only [same, ↓reduceIte, ← mem_rows_iff, other, ne_eq, not_false_eq_true, and_true]
    exact ⟨Or.inr, fun h => h.resolve_left fun eq => other (eq ▸ rfl)⟩

theorem upsert_self (row : ρ) (rs : List ρ) (found : rs.find? (fun r => key r = key row) = some row) :
    upsert key row rs = rs := by
  induction rs with
  | nil => cases found
  | cons r rs ih =>
    by_cases same : key r = key row
    · simp only [find?_cons, same, decide_true, Option.some.injEq] at found
      simp [upsert, found]
    · simp only [find?_cons, same, decide_false] at found
      simp [upsert, same, ih found]

theorem put_self (found : t.find? (key row) = some row) : t.put row = t := by
  cases t with
  | mk rows nodup =>
    simp only [put, mk.injEq]
    exact upsert_self row rows found

/-- The rows of an `UPDATE`, written back one after the other. -/
def putAll (t : Table key) (rs : List ρ) : Table key := rs.foldl put t

@[simp] theorem putAll_nil (t : Table key) : t.putAll [] = t := rfl

@[simp] theorem putAll_cons (t : Table key) (r : ρ) (rs : List ρ) :
    t.putAll (r :: rs) = (t.put r).putAll rs := rfl

theorem putAll_append (t : Table key) (rs more : List ρ) :
    t.putAll (rs ++ more) = (t.putAll rs).putAll more := foldl_append

theorem find?_putAll_other (other : ∀ r ∈ rs, key r ≠ k) : (t.putAll rs).find? k = t.find? k := by
  induction rs generalizing t with
  | nil => rfl
  | cons r rs ih =>
    rw [putAll_cons, ih fun q member => other q (mem_cons_of_mem _ member), find?_put,
      if_neg (other r mem_cons_self)]

theorem find?_putAll_mem (member : r ∈ rs) : ∃ q ∈ rs, (t.putAll rs).find? (key r) = some q := by
  induction rs generalizing t r with
  | nil => cases member
  | cons head rs ih =>
    by_cases later : ∃ q ∈ rs, key q = key r
    · obtain ⟨q, inside, same⟩ := later
      obtain ⟨s, there, found⟩ := ih inside
      exact ⟨s, mem_cons_of_mem _ there, same ▸ found⟩
    · have here : head = r := by
        rcases mem_cons.mp member with rfl | inside
        · rfl
        · exact absurd ⟨r, inside, rfl⟩ later
      subst here
      refine ⟨head, mem_cons_self, ?_⟩
      rw [putAll_cons, find?_putAll_other fun q inside same => later ⟨q, inside, same⟩,
        find?_put_self]

theorem ne_of_find?_putAll (absent : (t.putAll rs).find? k = none) : ∀ r ∈ rs, key r ≠ k := by
  intro r member same
  obtain ⟨q, -, found⟩ := find?_putAll_mem (t := t) member
  rw [same, absent] at found
  cases found

omit [DecidableEq κ] in
theorem nodup_keys_concat (nodup : (rs.map key).Nodup) (other : ∀ q ∈ rs, key q ≠ key r) :
    ((rs ++ [r]).map key).Nodup := by
  rw [map_append, nodup_append]
  refine ⟨nodup, by simp, ?_⟩
  intro a old b this
  obtain ⟨q, member, rfl⟩ := mem_map.mp old
  rw [map_singleton, mem_singleton] at this
  exact this ▸ other q member

theorem mem_putAll (member : r ∈ (t.putAll rs).rows) : r ∈ t.rows ∨ r ∈ rs := by
  induction rs generalizing t with
  | nil => exact .inl member
  | cons q rs ih =>
    rcases ih member with before | later
    · rcases mem_put.mp before with rfl | ⟨old, -⟩
      · exact .inr mem_cons_self
      · exact .inl old
    · exact .inr (mem_cons_of_mem _ later)

theorem rows_putAll_fresh (nodup : (rs.map key).Nodup) (fresh : ∀ r ∈ rs, t.find? (key r) = none) :
    (t.putAll rs).rows = t.rows ++ rs := by
  induction rs generalizing t with
  | nil => simp
  | cons r rs ih =>
    rw [map_cons, nodup_cons] at nodup
    rw [putAll_cons, ih nodup.2, rows_put_fresh (fresh r mem_cons_self)]
    · simp
    · intro q member
      have other : key r ≠ key q := fun same => nodup.1 (same ▸ mem_map_of_mem member)
      rw [find?_put, if_neg other]
      exact fresh q (mem_cons_of_mem _ member)

theorem find?_eq_none_of_key {k : κ} (absent : k ∉ rs.map key) :
    rs.find? (fun r => key r = k) = none := by
  rw [find?_eq_none]
  intro other member
  simp only [decide_eq_true_eq]
  exact fun same => absent (same ▸ mem_map_of_mem member)

theorem find?_putAll (rs : List ρ) (nodup : (rs.map key).Nodup) (t : Table key) (k : κ) :
    (t.putAll rs).find? k = (rs.find? (fun r => key r = k)).or (t.find? k) := by
  induction rs generalizing t with
  | nil => simp
  | cons r rs ih =>
    simp only [map_cons, nodup_cons] at nodup
    rw [putAll_cons, ih nodup.2, find?_put]
    by_cases hit : key r = k
    · simp [hit, find?_eq_none_of_key (hit ▸ nodup.1)]
    · simp [hit]

theorem putAll_self (found : ∀ r ∈ rs, t.find? (key r) = some r) : t.putAll rs = t := by
  induction rs with
  | nil => rfl
  | cons r rs ih =>
    rw [putAll_cons, put_self (found r mem_cons_self)]
    exact ih fun q member => found q (mem_cons_of_mem _ member)

theorem rows_putAll_changed (nodup : (rs.map key).Nodup)
    (found : ∀ r ∈ rs, t.find? (key r) = some r) (keep : ∀ r, key (f r) = key r) :
    (t.putAll (rs.flatMap fun r => [r, f r])).rows =
      t.rows.map fun r => if key r ∈ rs.map key then f r else r := by
  induction rs generalizing t with
  | nil => simp
  | cons r rs ih =>
    rw [map_cons, nodup_cons] at nodup
    have here := found r mem_cons_self
    have present : t.find? (key (f r)) = some r := by rw [keep, here]
    rw [flatMap_cons, putAll_append, putAll_cons, putAll_cons, putAll_nil, put_self here,
      ih nodup.2, rows_put_present present, map_map]
    · refine map_congr_left fun q member => ?_
      by_cases same : key q = key r
      · have equal : q = r := eq_of_key member (mem_of_find? here) same
        subst equal
        simp only [Function.comp_apply, keep, if_true, map_cons, mem_cons, true_or,
          if_neg nodup.1]
      · simp [keep, same]
    · intro q member
      have other : key r ≠ key q := fun same => nodup.1 (same ▸ mem_map_of_mem member)
      rw [find?_put, keep, if_neg other]
      exact found q (mem_cons_of_mem _ member)

theorem rows_putAll_fresh_changed (nodup : (rs.map key).Nodup)
    (fresh : ∀ r ∈ rs, t.find? (key r) = none) (keep : ∀ r, key (f r) = key r) :
    (t.putAll (rs.flatMap fun r => [r, f r])).rows = t.rows ++ rs.map f := by
  induction rs generalizing t with
  | nil => simp
  | cons r rs ih =>
    rw [map_cons, nodup_cons] at nodup
    have here := fresh r mem_cons_self
    have rows : ((t.put r).put (f r)).rows = t.rows ++ [f r] := by
      have present : (t.put r).find? (key (f r)) = some r := by rw [keep, find?_put_self]
      have others : ∀ q ∈ t.rows, key q ≠ key r := by
        intro q member same
        have found := find?_of_mem member
        rw [same, here] at found
        cases found
      rw [rows_put_present present, rows_put_fresh here, map_append, map_singleton]
      congr 1
      · conv_rhs => rw [← map_id t.rows]
        refine map_congr_left fun q member => ?_
        simp [keep, others q member]
      · simp [keep]
    rw [flatMap_cons, putAll_append, putAll_cons, putAll_cons, putAll_nil, ih nodup.2, rows]
    · simp
    · intro q member
      have other : key r ≠ key q := fun same => nodup.1 (same ▸ mem_map_of_mem member)
      rw [find?_put, keep, if_neg other, find?_put, if_neg other]
      exact fresh q (mem_cons_of_mem _ member)

theorem rows_putAll_where (t : Table key) (p : ρ → Bool) (keep : ∀ r, key (f r) = key r) :
    (t.putAll ((t.rows.filter p).flatMap fun r => [r, f r])).rows =
      t.rows.map (updateWhere p f) := by
  have nodup : ((t.rows.filter p).map key).Nodup :=
    t.nodup.sublist (filter_sublist.map key)
  rw [rows_putAll_changed nodup (fun r member => find?_of_mem (mem_of_mem_filter member)) keep]
  refine map_congr_left fun r member => ?_
  have iff : key r ∈ (t.rows.filter p).map key ↔ p r = true := by
    constructor
    · intro inside
      obtain ⟨q, chosen, same⟩ := mem_map.mp inside
      have equal := eq_of_key (mem_of_mem_filter chosen) member same
      exact equal ▸ (mem_filter.mp chosen).2
    · exact fun chosen => mem_map_of_mem (mem_filter.mpr ⟨member, chosen⟩)
  simp only [updateWhere, iff]

theorem find?_filter_map (p : ρ → Bool) (f : ρ → ρ)
    (keep : ∀ r, p r = true → key (f r) = key r) (k : κ) (rs : List ρ)
    (nodup : (rs.map key).Nodup) :
    ((rs.filter p).map f).find? (fun r => key r = k) =
      (rs.find? (fun r => key r = k)).bind (fun r => if p r then some (f r) else none) := by
  induction rs with
  | nil => simp
  | cons r rs ih =>
    simp only [map_cons, nodup_cons] at nodup
    by_cases hit : key r = k
    · by_cases chosen : p r
      · simp [chosen, hit, keep r chosen]
      · simp [chosen, hit, ih nodup.2, find?_eq_none_of_key (hit ▸ nodup.1)]
    · by_cases chosen : p r
      · simp [chosen, hit, keep r chosen, ih nodup.2]
      · simp [chosen, hit, ih nodup.2]

/-- After `UPDATE … SET f WHERE p` each row that satisfies `p` has become `f` of it. -/
theorem find?_putAll_updated (t : Table key) (p : ρ → Bool) (f : ρ → ρ)
    (keep : ∀ r, p r = true → key (f r) = key r) (k : κ) :
    (t.putAll (t.updated p f)).find? k = (t.find? k).map (updateWhere p f) := by
  have same : ((t.rows.filter p).map f).map key = (t.rows.filter p).map key := by
    rw [map_map]
    exact map_congr_left fun r member => keep r (mem_filter.mp member).2
  have nodup : ((t.updated p f).map key).Nodup := by
    rw [updated, same]
    exact t.nodup.sublist ((filter_sublist).map key)
  rw [find?_putAll _ nodup, updated, find?_filter_map p f keep k t.rows t.nodup]
  change (Option.bind (t.find? k) _).or _ = _
  cases t.find? k with
  | none => rfl
  | some r => by_cases chosen : p r <;> simp [updateWhere, chosen]

/-- The rows of a table are determined by its lookups, up to their order. -/
theorem rows_perm {t' : Table key} (keeps : ∀ r, key (f r) = key r) {new : Option ρ}
    (fresh : ∀ r ∈ new, t.find? (key r) = none)
    (after : ∀ k, t'.find? k = ((t.find? k).map f).or (new.filter fun r => key r = k)) :
    t'.rows.Perm (t.rows.map f ++ new.toList) := by
  have keys : ((t.rows.map f ++ new.toList).map key).Nodup := by
    have same : key ∘ f = key := funext keeps
    rw [map_append, map_map, same]
    cases new with
    | none => simpa using t.nodup
    | some r =>
      refine List.Nodup.append t.nodup (nodup_singleton _) (disjoint_singleton.mpr ?_)
      intro taken
      obtain ⟨old, member, equal⟩ := mem_map.mp taken
      have found := find?_of_mem member
      rw [equal, fresh r rfl] at found
      cases found
  rw [perm_ext_iff_of_nodup (t'.nodup.of_map _) (keys.of_map _)]
  intro row
  rw [mem_rows_iff, after, mem_append, mem_map, Option.mem_toList]
  constructor
  · intro found
    rcases Option.or_eq_some_iff.mp found with old | ⟨-, added⟩
    · obtain ⟨r, there, same⟩ := Option.map_eq_some_iff.mp old
      exact .inl ⟨r, mem_of_find? (key_of_find? there ▸ there), same⟩
    · exact .inr (Option.filter_eq_some_iff.mp added).1
  · rintro (⟨r, member, rfl⟩ | added)
    · rw [keeps, find?_of_mem member]
      rfl
    · rw [fresh row added, Option.map_none, Option.none_or, Option.filter_eq_some_iff]
      exact ⟨added, decide_eq_true rfl⟩

omit [DecidableEq κ] in
/-- How a count over the rows changes when one of them is judged anew. -/
theorem countP_rows (member : row ∈ t.rows) {q : ρ → Bool}
    (same : ∀ r ∈ t.rows, key r ≠ key row → q r = p r) :
    t.rows.countP q + (p row).toNat = t.rows.countP p + (q row).toNat := by
  obtain ⟨front, back, cut⟩ := append_of_mem member
  have nodup := t.nodup
  rw [cut, map_append, map_cons, nodup_middle, nodup_cons, ← map_append]
    at nodup
  have judged : ∀ r ∈ front ++ back, q r = p r := by
    intro r inside
    refine same r (cut ▸ ?_) fun equal => nodup.1 (equal ▸ mem_map_of_mem inside)
    rcases mem_append.mp inside with before | behind
    · exact mem_append_left _ before
    · exact mem_append_right _ (mem_cons_of_mem _ behind)
  have rest : (front ++ back).countP q = (front ++ back).countP p :=
    countP_congr fun r inside => by rw [judged r inside]
  have split : ∀ c : ρ → Bool, t.rows.countP c = (front ++ back).countP c + (c row).toNat := by
    intro c
    rw [cut, countP_append, countP_append, countP_cons]
    cases c row with
    | false => simp
    | true =>
      simp
      omega
  rw [split, split, rest]
  omega

end Table

/-! ### Sums over rows -/

section
variable {α β κ : Type} [DecidableEq κ] {f : β → Int}

theorem sum_filter_map (p : α → Bool) (f : α → Int) (l : List α) :
    ((l.filter p).map f).sum = (l.map fun x => if p x then f x else 0).sum := by
  induction l with
  | nil => rfl
  | cons x l ih => by_cases h : p x = true <;> simp [h, ih]

theorem sum_filter_or {p q : β → Bool} (ys : List β) (apart : ∀ y, p y = true → q y = false) :
    ((ys.filter fun y => p y || q y).map f).sum =
      ((ys.filter p).map f).sum + ((ys.filter q).map f).sum := by
  induction ys with
  | nil => rfl
  | cons y ys ih =>
    cases first : p y with
    | true =>
      simp only [filter_cons, first, apart y first, Bool.or_false, if_true, map_cons,
        sum_cons, ih, Bool.false_eq_true, if_false]
      omega
    | false =>
      cases second : q y with
      | true =>
        simp only [filter_cons, first, second, Bool.or_true, if_true, map_cons,
          sum_cons, ih, Bool.false_eq_true, if_false]
        omega
      | false => simpa [filter_cons, first, second] using ih

/-- Adding up what refers to each of some rows adds up what refers to any of them. -/
theorem sum_by_key {key : α → κ} {xs : List α} (nodup : (xs.map key).Nodup) (ys : List β)
    (ref : β → κ) : (xs.map fun x => ((ys.filter fun y => ref y = key x).map f).sum).sum =
      ((ys.filter fun y => ref y ∈ xs.map key).map f).sum := by
  induction xs with
  | nil => simp
  | cons x xs ih =>
    rw [map_cons, nodup_cons] at nodup
    have apart : ∀ y, decide (ref y = key x) = true → decide (ref y ∈ xs.map key) = false := by
      intro y here
      rw [of_decide_eq_true here]
      exact decide_eq_false nodup.1
    rw [map_cons, sum_cons, ih nodup.2, ← sum_filter_or ys apart]
    simp

end
end Foundation
