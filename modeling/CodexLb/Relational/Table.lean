import Mathlib.Data.List.Nodup

/-!
# Tables with a primary key

A table keeps its rows in insertion order under distinct keys; the key
constraint is a field, so no operation can store two rows under one key.
The operations are the statements `SELECT`, `INSERT … ON CONFLICT`,
`UPDATE … WHERE` and `DELETE … WHERE`; each has one law about `find`.
-/

namespace Relational

/-- Rows in insertion order; the primary key of a row is unique. -/
structure Table (κ ρ : Type) where
  rows : List (κ × ρ)
  distinct : (rows.map Prod.fst).Nodup
  deriving DecidableEq

namespace Table

variable {κ ρ : Type}

/-- The table without rows. -/
def empty : Table κ ρ := ⟨[], List.nodup_nil⟩

/-- Tables are equal when they hold the same rows in the same order. -/
theorem ext {t u : Table κ ρ} (h : t.rows = u.rows) : t = u := by
  cases t
  cases u
  congr

/-- `SELECT … WHERE p`, in row order. -/
def select (t : Table κ ρ) (p : κ → ρ → Bool) : List (κ × ρ) := t.rows.filter fun r ↦ p r.1 r.2

/-- No two selected rows share a key. -/
theorem nodup_select (t : Table κ ρ) (p : κ → ρ → Bool) : ((t.select p).map Prod.fst).Nodup :=
  t.distinct.sublist (List.filter_sublist.map _)

/-- Rewrite every row, keeping its key. -/
def mapRows (t : Table κ ρ) (f : κ → ρ → ρ) : Table κ ρ where
  rows := t.rows.map fun r ↦ (r.1, f r.1 r.2)
  distinct := by simpa [Function.comp_def] using t.distinct

/-- `UPDATE … SET f WHERE p`. -/
def update (t : Table κ ρ) (p : κ → ρ → Bool) (f : ρ → ρ) : Table κ ρ :=
  t.mapRows fun k r ↦ if p k r then f r else r

/-- `DELETE … WHERE p`. -/
def delete (t : Table κ ρ) (p : κ → ρ → Bool) : Table κ ρ where
  rows := t.rows.filter fun r ↦ !p r.1 r.2
  distinct := t.distinct.sublist (List.filter_sublist.map _)

variable [DecidableEq κ]

/-- `SELECT … WHERE key = k`. -/
def find (t : Table κ ρ) (k : κ) : Option ρ := t.rows.lookup k

/-- `SELECT COUNT(*) … WHERE key = k`, which is zero or one. -/
def has (t : Table κ ρ) (k : κ) : Bool := (t.find k).isSome

private theorem fresh_nodup {t : Table κ ρ} {k : κ} (r : ρ) (h : t.rows.lookup k = none) :
    ((t.rows ++ [(k, r)]).map Prod.fst).Nodup := by
  rw [List.map_append, List.map_singleton]
  refine List.Nodup.append t.distinct (List.nodup_singleton k) ?_
  intro a ha hk
  obtain ⟨row, hrow, rfl⟩ := List.mem_map.mp ha
  have hne := List.lookup_eq_none_iff.mp h row hrow
  simp_all

/-- `INSERT … ON CONFLICT DO NOTHING`. -/
def insert (t : Table κ ρ) (k : κ) (r : ρ) : Table κ ρ :=
  if h : t.rows.lookup k = none then ⟨t.rows ++ [(k, r)], fresh_nodup r h⟩ else t

/-- `INSERT … ON CONFLICT DO UPDATE SET f`. -/
def upsert (t : Table κ ρ) (k : κ) (new : ρ) (f : ρ → ρ) : Table κ ρ :=
  (t.update (fun k' _ ↦ k' = k) f).insert k new

/-- One upsert for each item, in order. -/
def upsertAll {α : Type} (t : Table κ ρ) (items : List α) (key : α → κ) (new : α → ρ)
    (f : α → ρ → ρ) : Table κ ρ :=
  items.foldl (fun t a ↦ t.upsert (key a) (new a) (f a)) t

/-- The empty table has no row. -/
@[simp] theorem find_empty (k : κ) : (empty : Table κ ρ).find k = none := rfl

/-- A lookup succeeds exactly on the stored rows. -/
theorem mem_rows_iff {t : Table κ ρ} {k : κ} {r : ρ} : (k, r) ∈ t.rows ↔ t.find k = some r := by
  obtain ⟨rows, hd⟩ := t
  change (k, r) ∈ rows ↔ rows.lookup k = some r
  induction rows with
  | nil => simp
  | cons row rows ih =>
    obtain ⟨a, b⟩ := row
    rw [List.map_cons, List.nodup_cons] at hd
    rw [List.mem_cons, ih hd.2]
    by_cases hk : k = a
    · subst hk
      have hn : rows.lookup k ≠ some r := by
        intro hr
        exact hd.1 (List.mem_map.mpr ⟨(k, r), (ih hd.2).mpr hr, rfl⟩)
      rw [List.lookup_cons_self, Prod.mk.injEq, Option.some.injEq]
      simp [hn, eq_comm]
    · have hb : (k == a) = false := beq_eq_false_iff_ne.mpr hk
      rw [List.lookup_cons, hb]
      simp [hk]

/-- A selected row is a stored row that meets the condition. -/
theorem mem_select_iff {t : Table κ ρ} {p : κ → ρ → Bool} {k : κ} {r : ρ} :
    (k, r) ∈ t.select p ↔ t.find k = some r ∧ p k r = true := by
  rw [select, List.mem_filter, mem_rows_iff]

/-- A condition that one row alone meets selects that row. -/
theorem select_eq_singleton {t : Table κ ρ} {p : κ → ρ → Bool} {k : κ} {r : ρ}
    (hfind : t.find k = some r) (hp : p k r = true)
    (honly : ∀ k' r', t.find k' = some r' → p k' r' = true → k' = k) :
    t.select p = [(k, r)] := by
  rw [← List.perm_singleton]
  apply (List.perm_ext_iff_of_nodup (.of_map _ (t.nodup_select p)) (List.nodup_singleton _)).mpr
  rintro ⟨k', r'⟩
  rw [mem_select_iff, List.mem_singleton, Prod.mk.injEq]
  constructor
  · rintro ⟨hfind', hp'⟩
    have hk := honly k' r' hfind' hp'
    rw [hk, hfind, Option.some.injEq] at hfind'
    exact ⟨hk, hfind'.symm⟩
  · rintro ⟨rfl, rfl⟩
    exact ⟨hfind, hp⟩

/-- The key test reads the lookup. -/
theorem has_iff {t : Table κ ρ} {k : κ} : t.has k = true ↔ ∃ r, t.find k = some r :=
  Option.isSome_iff_exists

/-- The key test fails exactly where the lookup does. -/
theorem has_eq_false_iff {t : Table κ ρ} {k : κ} : t.has k = false ↔ t.find k = none := by
  rw [has, Option.isSome_eq_false_iff, Option.isNone_iff_eq_none]

/-- Rewriting rows rewrites the lookup. -/
@[simp] theorem find_mapRows (t : Table κ ρ) (f : κ → ρ → ρ) (k : κ) :
    (t.mapRows f).find k = (t.find k).map (f k) := by
  change (t.rows.map fun r ↦ (r.1, f r.1 r.2)).lookup k = (t.rows.lookup k).map (f k)
  induction t.rows with
  | nil => rfl
  | cons row rows ih =>
    rw [List.map_cons, List.lookup_cons, List.lookup_cons, ih]
    split
    · next h => rw [eq_of_beq h]; rfl
    · rfl

/-- An update changes the row of a key when its condition holds there. -/
@[simp] theorem find_update (t : Table κ ρ) (p : κ → ρ → Bool) (f : ρ → ρ) (k : κ) :
    (t.update p f).find k = (t.find k).map fun r ↦ if p k r then f r else r :=
  find_mapRows t _ k

/-- An update of the row of one key. -/
theorem find_update_self (t : Table κ ρ) (k : κ) (f : ρ → ρ) :
    (t.update (fun k' _ ↦ k' = k) f).find k = (t.find k).map f := by
  simp

/-- An update of the row of one key leaves the others alone. -/
theorem find_update_ne (t : Table κ ρ) {k other : κ} (h : other ≠ k) (f : ρ → ρ) :
    (t.update (fun k' _ ↦ k' = k) f).find other = t.find other := by
  rw [find_update]
  cases t.find other <;> simp [h]

/-- An update keeps the keys. -/
@[simp] theorem has_update (t : Table κ ρ) (p : κ → ρ → Bool) (f : ρ → ρ) (k : κ) :
    (t.update p f).has k = t.has k := by
  rw [has, find_update, Option.isSome_map, has]

/-- A deletion keeps the rows that do not meet its condition. -/
@[simp] theorem find_delete (t : Table κ ρ) (p : κ → ρ → Bool) (k : κ) :
    (t.delete p).find k = (t.find k).filter fun r ↦ !p k r := by
  ext r
  rw [← mem_rows_iff, Option.filter_eq_some_iff, ← mem_rows_iff, delete, List.mem_filter]

/-- A filter that refuses no value keeps it. -/
theorem filter_of_forall {o : Option ρ} {p : ρ → Bool} (h : ∀ r, o = some r → p r = true) :
    o.filter p = o := by
  cases o with
  | none => rfl
  | some r => exact Option.filter_some_pos (h r rfl)

/-- An insertion keeps a stored row and adds a missing one. -/
@[simp] theorem find_insert (t : Table κ ρ) (k : κ) (r : ρ) (k' : κ) :
    (t.insert k r).find k' = if k' = k then some ((t.find k).getD r) else t.find k' := by
  unfold insert
  split
  · next h =>
    have hk : t.find k = none := h
    rw [find, List.lookup_append]
    split
    · next he => subst he; simp [h, hk]
    · next he =>
      have hs : [(k, r)].lookup k' = none := by simp [he]
      rw [hs, Option.or_none, find]
  · next h =>
    split
    · next he =>
      subst he
      obtain ⟨b, hb⟩ := Option.ne_none_iff_exists'.mp h
      simp [find, hb]
    · rfl

/-- An upsert writes one key and leaves every other key alone. -/
@[simp] theorem find_upsert (t : Table κ ρ) (k : κ) (new : ρ) (f : ρ → ρ) (k' : κ) :
    (t.upsert k new f).find k' =
      if k' = k then some (((t.find k).map f).getD new) else t.find k' := by
  rw [upsert, find_insert]
  split
  · simp
  · next h => rw [find_update]; cases t.find k' <;> simp [h]

/-- A sequence of upserts leaves the keys it does not name alone. -/
theorem find_upsertAll_of_notMem {α : Type} (t : Table κ ρ) (items : List α) (key : α → κ)
    (new : α → ρ) (f : α → ρ → ρ) {k : κ} (h : k ∉ items.map key) :
    (t.upsertAll items key new f).find k = t.find k := by
  induction items generalizing t with
  | nil => rfl
  | cons a items ih =>
    rw [List.map_cons, List.mem_cons, not_or] at h
    change ((t.upsert (key a) (new a) (f a)).upsertAll items key new f).find k = _
    rw [ih _ h.2, find_upsert, if_neg h.1]

/-- A sequence of upserts under distinct keys writes each of them once. -/
theorem find_upsertAll_of_mem {α : Type} (t : Table κ ρ) {items : List α} {key : α → κ}
    (new : α → ρ) (f : α → ρ → ρ) (hd : (items.map key).Nodup) {a : α} (ha : a ∈ items) :
    (t.upsertAll items key new f).find (key a) =
      some (((t.find (key a)).map (f a)).getD (new a)) := by
  induction items generalizing t with
  | nil => cases ha
  | cons b items ih =>
    rw [List.map_cons, List.nodup_cons] at hd
    change ((t.upsert (key b) (new b) (f b)).upsertAll items key new f).find (key a) = _
    rcases List.mem_cons.mp ha with rfl | ha
    · rw [find_upsertAll_of_notMem _ _ _ _ _ hd.1, find_upsert, if_pos rfl]
    · have hne : key a ≠ key b := by
        intro he
        exact hd.1 (List.mem_map.mpr ⟨a, ha, he⟩)
      rw [ih _ hd.2 ha, find_upsert, if_neg hne]

/-- One `INSERT … ON CONFLICT DO UPDATE` for each of some keys. -/
def upsertKeys (t : Table κ ρ) (keys : List κ) (new : ρ) (f : ρ → ρ) : Table κ ρ :=
  t.upsertAll keys id (fun _ ↦ new) fun _ ↦ f

/-- One `INSERT … ON CONFLICT DO NOTHING` for each of some keys. -/
def insertKeys (t : Table κ ρ) (keys : List κ) (new : ρ) : Table κ ρ := t.upsertKeys keys new id

/-- Upserts under distinct keys write these keys. -/
theorem find_upsertKeys (t : Table κ ρ) {keys : List κ} (hd : keys.Nodup) (new : ρ) (f : ρ → ρ)
    (k : κ) : (t.upsertKeys keys new f).find k =
      if k ∈ keys then some (((t.find k).map f).getD new) else t.find k := by
  split
  · next hk =>
    exact find_upsertAll_of_mem t (fun _ ↦ new) (fun _ ↦ f) (by rwa [List.map_id]) hk
  · next hk =>
    apply find_upsertAll_of_notMem
    rwa [List.map_id]

/-- Insertions under distinct keys keep the stored rows and add the missing ones. -/
theorem find_insertKeys (t : Table κ ρ) {keys : List κ} (hd : keys.Nodup) (new : ρ) (k : κ) :
    (t.insertKeys keys new).find k =
      if k ∈ keys then some ((t.find k).getD new) else t.find k := by
  rw [insertKeys, find_upsertKeys t hd, Option.map_id_fun, id]

end Table
end Relational
