/-!
# Tables in insertion order

An association list in which every key occurs once. A new key goes to the end; a key that is already
there keeps its place and takes the new value.
-/

namespace LineDirective

/-- Values under keys, in the order in which the keys were first inserted. -/
abbrev Table (κ α : Type) := List (κ × α)

namespace Table

variable {κ α : Type} [DecidableEq κ]

def keys (t : Table κ α) : List κ := t.map Prod.fst

def get? (t : Table κ α) (key : κ) : Option α := (t.find? fun entry => entry.1 = key).map Prod.snd

def insert (t : Table κ α) (key : κ) (value : α) : Table κ α :=
  match t with
  | [] => [(key, value)]
  | entry :: rest =>
    if entry.1 = key then (key, value) :: rest else entry :: insert rest key value

/-- Puts all entries of another table into a table, in order. -/
def insertAll (t entries : Table κ α) : Table κ α :=
  entries.foldl (fun t entry => insert t entry.1 entry.2) t

/-! ## Look-up and order -/

theorem get?_insert (t : Table κ α) (key other : κ) (value : α) :
    (t.insert key value).get? other = if key = other then some value else t.get? other := by
  induction t with
  | nil => by_cases h : key = other <;> simp [insert, get?, h]
  | cons entry rest ih =>
    unfold get? at *
    by_cases same : entry.1 = key <;> by_cases h : key = other <;>
      by_cases e : entry.1 = other <;> simp_all [insert]

/-- A key that is already there keeps its place, and a new one goes to the end. -/
theorem keys_insert (t : Table κ α) (key : κ) (value : α) :
    (t.insert key value).keys = if key ∈ t.keys then t.keys else t.keys ++ [key] := by
  induction t with
  | nil => rfl
  | cons entry rest ih =>
    unfold keys at *
    by_cases same : entry.1 = key
    · simp [insert, same]
    · by_cases there : key ∈ rest.map Prod.fst <;>
        simp_all [insert, Ne.symm same]

theorem get?_cons (entry : κ × α) (t : Table κ α) (key : κ) :
    get? (entry :: t) key = if entry.1 = key then some entry.2 else get? t key := by
  by_cases same : entry.1 = key <;> simp [get?, same]

theorem get?_eq_none {t : Table κ α} {key : κ} (absent : key ∉ t.keys) : t.get? key = none := by
  induction t with
  | nil => rfl
  | cons entry t ih =>
    have apart : key ≠ entry.1 ∧ key ∉ keys t := by simpa [keys] using absent
    rw [get?_cons, if_neg apart.1.symm, ih apart.2]

theorem nodup_insert {t : Table κ α} (distinct : t.keys.Nodup) (key : κ) (value : α) :
    (t.insert key value).keys.Nodup := by
  rw [keys_insert]
  split
  · exact distinct
  · rename_i absent
    rw [List.nodup_append]
    refine ⟨distinct, by simp, ?_⟩
    rintro a mem b single rfl
    exact absent (List.mem_singleton.mp single ▸ mem)

theorem nodup_insertAll {t : Table κ α} (distinct : t.keys.Nodup) (entries : Table κ α) :
    (t.insertAll entries).keys.Nodup := by
  induction entries generalizing t with
  | nil => exact distinct
  | cons entry entries ih => exact ih (nodup_insert distinct entry.1 entry.2)

theorem mem_keys_of_insertAll {t entries : Table κ α} {key : κ}
    (mem : key ∈ (t.insertAll entries).keys) : key ∈ t.keys ∨ key ∈ entries.keys := by
  induction entries generalizing t with
  | nil => exact .inl mem
  | cons entry entries ih =>
    rcases ih mem with here | later
    · rw [keys_insert] at here
      split at here
      · exact .inl here
      · rcases List.mem_append.mp here with old | new
        · exact .inl old
        · exact .inr (List.mem_cons.mpr (.inl (List.mem_singleton.mp new)))
    · exact .inr (List.mem_cons_of_mem entry.1 later)

/-- Entries put into a table are found before those that were there. -/
theorem get?_insertAll (t : Table κ α) {entries : Table κ α} (distinct : entries.keys.Nodup)
    (key : κ) : (t.insertAll entries).get? key = (entries.get? key).or (t.get? key) := by
  induction entries generalizing t with
  | nil => rfl
  | cons entry entries ih =>
    obtain ⟨absent, distinct⟩ := List.nodup_cons.mp (show (entry.1 :: keys entries).Nodup from distinct)
    show (insertAll (t.insert entry.1 entry.2) entries).get? key = _
    rw [ih _ distinct, get?_insert, get?_cons]
    by_cases same : entry.1 = key
    · rw [if_pos same, if_pos same, get?_eq_none (same ▸ absent)]
      rfl
    · rw [if_neg same, if_neg same]

end Table

end LineDirective
