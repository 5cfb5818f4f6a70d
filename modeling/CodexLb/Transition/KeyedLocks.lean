import CodexLb.Relational.Table

/-!
# Locks by key behind weak references

A registry maps a key to a lock that only its users keep alive: an entry whose
lock nobody holds may be dropped, and a lookup that finds no living lock
makes a new one. Every party that holds a lock of a key holds the lock that the
registry has for the key, so one owner for each lock is one owner for each key.
-/

namespace Transition

open Relational

/-- A user of the registry: its key, the lock it holds a reference to, and whether it owns it. -/
structure LockParty (κ : Type) where
  key : κ
  lock : Option Nat
  owns : Bool

variable {κ : Type} {parties : List (LockParty κ)} {lock : Nat}

/-- Some party holds a reference to the lock. -/
def lockAlive (parties : List (LockParty κ)) (lock : Nat) : Bool :=
  parties.any fun party ↦ party.lock == some lock

/-- Some party owns the lock. -/
def lockOwned (parties : List (LockParty κ)) (lock : Nat) : Bool :=
  parties.any fun party ↦ party.lock == some lock && party.owns

/-- A held lock is alive. -/
theorem lockAlive_of_mem {party : LockParty κ} (hmem : party ∈ parties)
    (h : party.lock = some lock) : lockAlive parties lock = true :=
  List.any_eq_true.mpr ⟨party, hmem, beq_iff_eq.mpr h⟩

/-- A lock that nobody owns is owned by no party. -/
theorem not_owns_of_free {party : LockParty κ} (hfree : lockOwned parties lock = false)
    (hmem : party ∈ parties) (h : party.lock = some lock) : party.owns = false := by
  have hnot := List.any_eq_false.mp hfree party hmem
  simpa [h] using hnot

/-- Drop the entries whose lock nobody holds. -/
def retainLocks (locks : Table κ Nat) (parties : List (LockParty κ)) : Table κ Nat :=
  locks.delete fun _ lock ↦ !lockAlive parties lock

variable [DecidableEq κ] {locks : Table κ Nat}

/-- The living lock of a key. -/
def upgradeLock (locks : Table κ Nat) (parties : List (LockParty κ)) (key : κ) : Option Nat :=
  (locks.find key).filter (lockAlive parties)

/-- Parties hold the registered lock of their key, and a lock has one owner. -/
structure LocksExclusive (parties : List (LockParty κ)) (locks : Table κ Nat) : Prop where
  registered : ∀ (i : Nat) (party : LockParty κ) (lock : Nat), parties[i]? = some party →
    party.lock = some lock → locks.find party.key = some lock
  single : ∀ (i j : Nat) (a b : LockParty κ) (lock : Nat),
    parties[i]? = some a → parties[j]? = some b → a.lock = some lock → b.lock = some lock →
    a.owns = true → b.owns = true → i = j

namespace LocksExclusive

/-- Two owners under one key are the same party. -/
theorem owner_unique (h : LocksExclusive parties locks) {i j : Nat} {a b : LockParty κ}
    (ha : parties[i]? = some a) (hb : parties[j]? = some b) (hkey : a.key = b.key)
    {lockA lockB : Nat} (hlockA : a.lock = some lockA) (hlockB : b.lock = some lockB)
    (howns : a.owns = true) (howns' : b.owns = true) : i = j := by
  have hregistered := h.registered i a lockA ha hlockA
  rw [hkey, h.registered j b lockB hb hlockB] at hregistered
  exact h.single i j a b lockA ha hb hlockA (hlockB.trans hregistered) howns howns'

/-- Nobody there, no registered lock. -/
theorem start : LocksExclusive ([] : List (LockParty κ)) .empty where
  registered _ _ _ h := by cases h
  single _ _ _ _ _ h := by cases h

omit [DecidableEq κ] in
private theorem get_set {i j : Nat} {new party : LockParty κ}
    (h : (parties.set i new)[j]? = some party) :
    (i = j ∧ party = new) ∨ (i ≠ j ∧ parties[j]? = some party) := by
  rw [List.getElem?_set] at h
  split at h
  · next heq =>
    split at h
    · cases h
      exact .inl ⟨heq, rfl⟩
    · cases h
  · next hne => exact .inr ⟨hne, h⟩

/-- The written party holds a registered lock, and the others keep theirs registered. -/
private theorem set_registered {written : Table κ Nat} {i : Nat} {new : LockParty κ}
    (hnew : new.lock = some lock) (hfind : written.find new.key = some lock)
    (hothers : ∀ (j : Nat) (party : LockParty κ) (held : Nat), parties[j]? = some party →
      party.lock = some held → written.find party.key = some held)
    (j : Nat) (party : LockParty κ) (held : Nat) (hget : (parties.set i new)[j]? = some party)
    (hheld : party.lock = some held) : written.find party.key = some held := by
  rcases get_set hget with ⟨rfl, rfl⟩ | ⟨hne, hget⟩
  · rw [hnew] at hheld
    cases hheld
    exact hfind
  · exact hothers j party held hget hheld

/-- A written party that owns nothing leaves the owners as they were. -/
private theorem set_single (h : LocksExclusive parties locks) {i : Nat} {new : LockParty κ}
    (howns : new.owns = false) (j k : Nat) (a b : LockParty κ) (held : Nat)
    (ha : (parties.set i new)[j]? = some a) (hb : (parties.set i new)[k]? = some b)
    (hlockA : a.lock = some held) (hlockB : b.lock = some held)
    (hownsA : a.owns = true) (hownsB : b.owns = true) : j = k := by
  rcases get_set ha with ⟨hij, haNew⟩ | ⟨hneA, haOld⟩
  · rw [haNew, howns] at hownsA
    cases hownsA
  · rcases get_set hb with ⟨hik, hbNew⟩ | ⟨hneB, hbOld⟩
    · rw [hbNew, howns] at hownsB
      cases hownsB
    · exact h.single j k a b held haOld hbOld hlockA hlockB hownsA hownsB

/-- A party without a lock joins. -/
theorem join (h : LocksExclusive parties locks) {new : LockParty κ} (hnew : new.lock = none) :
    LocksExclusive (parties ++ [new]) locks := by
  have hold : ∀ (i : Nat) (party : LockParty κ) (lock : Nat),
      (parties ++ [new])[i]? = some party → party.lock = some lock →
      parties[i]? = some party := by
    intro i party lock hget hlock
    rw [List.getElem?_append] at hget
    split at hget
    · exact hget
    · rw [List.getElem?_singleton] at hget
      split at hget
      · cases hget
        rw [hnew] at hlock
        cases hlock
      · cases hget
  constructor
  · intro i party lock hget hlock
    exact h.registered i party lock (hold i party lock hget hlock) hlock
  · intro i j a b lock ha hb hlockA hlockB
    exact h.single i j a b lock (hold i a lock ha hlockA) (hold j b lock hb hlockB) hlockA hlockB

/-- A party keeps its lock or lets it go, and owns it only if it did. -/
theorem keep (h : LocksExclusive parties locks) {i : Nat} {old new : LockParty κ}
    (hold : parties[i]? = some old) (hkey : new.key = old.key)
    (hlock : new.lock = none ∨ new.lock = old.lock) (howns : new.owns = true → old.owns = true) :
    LocksExclusive (parties.set i new) locks := by
  have hbefore : ∀ (j : Nat) (party : LockParty κ) (lock : Nat),
      (parties.set i new)[j]? = some party → party.lock = some lock →
      ∃ before : LockParty κ, parties[j]? = some before ∧ before.key = party.key ∧
        before.lock = some lock ∧ (party.owns = true → before.owns = true) := by
    intro j party lock hget hheld
    rcases get_set hget with ⟨rfl, rfl⟩ | ⟨hne, hget⟩
    · rcases hlock with hnone | hsame
      · rw [hnone] at hheld
        cases hheld
      · exact ⟨old, hold, hkey.symm, hsame.symm.trans hheld, howns⟩
    · exact ⟨party, hget, rfl, hheld, id⟩
  constructor
  · intro j party lock hget hheld
    obtain ⟨before, hbefore, hsame, hheldBefore, -⟩ := hbefore j party lock hget hheld
    rw [← hsame]
    exact h.registered j before lock hbefore hheldBefore
  · intro j k a b lock ha hb hlockA hlockB hownsA hownsB
    obtain ⟨a', ha', -, hlockA', hownsA'⟩ := hbefore j a lock ha hlockA
    obtain ⟨b', hb', -, hlockB', hownsB'⟩ := hbefore k b lock hb hlockB
    exact h.single j k a' b' lock ha' hb' hlockA' hlockB' (hownsA' hownsA) (hownsB' hownsB)

/-- A party takes its lock when nobody owns it. -/
theorem own (h : LocksExclusive parties locks) {i : Nat} {old new : LockParty κ}
    (hold : parties[i]? = some old) (hkey : new.key = old.key) (hlock : old.lock = some lock)
    (hnew : new.lock = some lock) (hfree : lockOwned parties lock = false) :
    LocksExclusive (parties.set i new) locks := by
  constructor
  · apply set_registered hnew _ h.registered
    rw [hkey]
    exact h.registered i old lock hold hlock
  · -- a second owner would have owned the lock before
    have hnone : ∀ (k : Nat) (party : LockParty κ), parties[k]? = some party →
        party.lock = some lock → party.owns ≠ true := by
      intro k party hget hheld howns
      rw [not_owns_of_free hfree (List.mem_of_getElem? hget) hheld] at howns
      cases howns
    intro j k a b held ha hb hlockA hlockB hownsA hownsB
    rcases get_set ha with ⟨hij, haNew⟩ | ⟨hneA, haOld⟩
    · rw [haNew, hnew] at hlockA
      cases hlockA
      rcases get_set hb with ⟨hik, hbNew⟩ | ⟨hneB, hbOld⟩
      · exact hij.symm.trans hik
      · exact absurd hownsB (hnone k b hbOld hlockB)
    · rcases get_set hb with ⟨hik, hbNew⟩ | ⟨hneB, hbOld⟩
      · rw [hbNew, hnew] at hlockB
        cases hlockB
        exact absurd hownsA (hnone j a haOld hlockA)
      · exact h.single j k a b held haOld hbOld hlockA hlockB hownsA hownsB

/-- Dropping dead entries keeps the locks that are held. -/
theorem retain (h : LocksExclusive parties locks) :
    LocksExclusive parties (retainLocks locks parties) where
  registered i party lock hget hheld := by
    have halive := lockAlive_of_mem (List.mem_of_getElem? hget) hheld
    rw [retainLocks, Table.find_delete, h.registered i party lock hget hheld,
      Option.filter_some_pos]
    simpa using halive
  single := h.single

/-- A party without a lock takes up the living lock of its key. -/
theorem upgrade (h : LocksExclusive parties locks) {i : Nat} {new : LockParty κ}
    (hlock : upgradeLock locks parties new.key = some lock) (hnew : new.lock = some lock)
    (howns : new.owns = false) : LocksExclusive (parties.set i new) locks := by
  have hfind : locks.find new.key = some lock := (Option.filter_eq_some_iff.mp hlock).1
  constructor
  · exact set_registered hnew hfind h.registered
  · exact h.set_single howns

/-- A party makes and registers a lock when no living lock is registered for its key. -/
theorem create (h : LocksExclusive parties locks) {i : Nat} {new : LockParty κ}
    (hnone : upgradeLock locks parties new.key = none) (hnew : new.lock = some lock)
    (howns : new.owns = false) (f : Nat → Nat) (hf : ∀ old, f old = lock) :
    LocksExclusive (parties.set i new) (locks.upsert new.key lock f) := by
  have hwritten : (locks.upsert new.key lock f).find new.key = some lock := by
    rw [Table.find_upsert, if_pos rfl]
    cases locks.find new.key with
    | none => rfl
    | some old => rw [Option.map_some, Option.getD_some, hf]
  -- a holder under the same key would keep the registered lock alive
  have hother : ∀ (j : Nat) (party : LockParty κ) (held : Nat), parties[j]? = some party →
      party.lock = some held → party.key ≠ new.key := by
    intro j party held hget hheld hkey
    have hregistered := h.registered j party held hget hheld
    have halive := lockAlive_of_mem (List.mem_of_getElem? hget) hheld
    rw [upgradeLock, ← hkey, hregistered, Option.filter_some_pos halive] at hnone
    cases hnone
  constructor
  · apply set_registered hnew hwritten
    intro j party held hget hheld
    rw [Table.find_upsert, if_neg (hother j party held hget hheld)]
    exact h.registered j party held hget hheld
  · exact h.set_single howns

end LocksExclusive
end Transition
