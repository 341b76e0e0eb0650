import Mathlib.Data.List.AList

-- Finite maps with one value type. An association list also fixes the order in which the map is
-- iterated over; nothing that is proved about a map may depend on it.

namespace AList

variable {α β : Type} [DecidableEq α]

def values (m : AList fun _ : α => β) : List β :=
  m.entries.map (·.snd)

def mapValues (f : β → β) (m : AList fun _ : α => β) : AList fun _ : α => β where
  entries := m.entries.map fun e => ⟨e.fst, f e.snd⟩
  nodupKeys := by
    have := m.nodupKeys
    rw [List.NodupKeys, List.keys] at this ⊢
    simpa [List.map_map, Function.comp_def] using this

-- Updates the value of a key that is in the map.
def adjust (a : α) (f : β → β) (m : AList fun _ : α => β) : AList fun _ : α => β :=
  match m.lookup a with
  | some b => m.insert a (f b)
  | none   => m

theorem lookup_mapValues (f : β → β) (m : AList fun _ : α => β) (a : α) :
    (m.mapValues f).lookup a = (m.lookup a).map f := by
  obtain ⟨entries, h⟩ := m
  simp only [lookup, mapValues]
  induction entries
  case nil => rfl
  case cons e entries ih =>
    obtain ⟨k, b⟩ := e
    have ih := ih (List.nodupKeys_cons.mp h).right
    by_cases he : a = k
    case pos =>
      subst he
      simp
    case neg =>
      rw [List.map_cons, List.dlookup_cons_ne _ _ he, List.dlookup_cons_ne _ _ he, ih]

@[simp]
theorem lookup_adjust (a : α) (f : β → β) (m : AList fun _ : α => β) :
    (m.adjust a f).lookup a = (m.lookup a).map f := by
  unfold adjust
  split
  case h_1 b h => simp [h]
  case h_2 h => simp [h]

theorem lookup_adjust_ne {a a' : α} (h : a ≠ a') (f : β → β) (m : AList fun _ : α => β) :
    (m.adjust a' f).lookup a = m.lookup a := by
  unfold adjust
  split
  case h_1 => exact lookup_insert_ne h
  case h_2 => rfl

theorem lookup_adjust_id (a a' : α) (m : AList fun _ : α => β) :
    (m.adjust a' id).lookup a = m.lookup a := by
  by_cases he : a = a'
  case pos => rw [he, lookup_adjust, Option.map_id, id]
  case neg => exact lookup_adjust_ne he id m

theorem lookup_of_lookup_erase {m : AList fun _ : α => β} {a a' : α} {b : β}
    (h : (m.erase a).lookup a' = some b) : m.lookup a' = some b := by
  by_cases he : a' = a
  case pos =>
    rw [he, lookup_erase] at h
    cases h
  case neg => rwa [lookup_erase_ne he] at h

-- Taking back an entry that was not there before.
theorem erase_insert_of_notMem {m : AList fun _ : α => β} {a : α} (h : a ∉ m) (b : β) :
    (m.insert a b).erase a = m := by
  refine AList.ext ?_
  rw [insert_of_notMem h]
  exact List.kerase_cons_eq rfl

theorem length_erase_le (m : AList fun _ : α => β) (a : α) :
    (m.erase a).entries.length ≤ m.entries.length :=
  (List.kerase_sublist a m.entries).length_le

theorem length_insert_of_mem {m : AList fun _ : α => β} {a : α} (h : a ∈ m) (b : β) :
    (m.insert a b).entries.length = m.entries.length := by
  have ⟨_, l, l', _, he, hk⟩ := List.exists_of_kerase h
  rw [entries_insert, List.length_cons, hk, he, List.length_append, List.length_append,
    List.length_cons]
  omega

theorem length_insert_of_notMem {m : AList fun _ : α => β} {a : α} (h : a ∉ m) (b : β) :
    (m.insert a b).entries.length = m.entries.length + 1 := by
  rw [entries_insert_of_notMem h, List.length_cons]

theorem mem_adjust {m : AList fun _ : α => β} (a a' : α) (f : β → β) : a' ∈ m.adjust a f ↔ a' ∈ m := by
  rw [← lookup_isSome, ← lookup_isSome]
  by_cases he : a' = a
  case pos => rw [he, lookup_adjust, Option.isSome_map]
  case neg => rw [lookup_adjust_ne he]

omit [DecidableEq α] in
-- The keys of a map determine its size.
theorem length_of_mem_iff {m m' : AList fun _ : α => β} (h : ∀ a, a ∈ m' ↔ a ∈ m) :
    m'.entries.length = m.entries.length := by
  have hp : m'.keys.Perm m.keys := (List.perm_ext_iff_of_nodup m'.keys_nodup m.keys_nodup).mpr h
  have hl := hp.length_eq
  simpa [keys, List.keys] using hl

theorem length_adjust (a : α) (f : β → β) (m : AList fun _ : α => β) :
    (m.adjust a f).entries.length = m.entries.length :=
  length_of_mem_iff fun a' => mem_adjust a a' f

theorem forall_values {m : AList fun _ : α => β} {P : β → Prop} :
    (∀ b ∈ m.values, P b) ↔ ∀ a b, m.lookup a = some b → P b := by
  simp only [values, List.forall_mem_map]
  exact ⟨fun h a b hl => h _ (mem_lookup_iff.mp hl), fun h e he => h e.fst e.snd (mem_lookup_iff.mpr he)⟩

theorem values_insert_of_notMem {m : AList fun _ : α => β} {a : α} (h : a ∉ m) (b : β) :
    (m.insert a b).values = b :: m.values := by
  rw [values, entries_insert_of_notMem h]
  rfl

-- One value of a map, and the others.
theorem values_perm {m : AList fun _ : α => β} {a : α} {b : β} (h : m.lookup a = some b) :
    m.values.Perm (b :: (m.erase a).values) := by
  have hm : a ∈ m := lookup_isSome.mp (by rw [h]; rfl)
  obtain ⟨b', l, l', _, he, hk⟩ := List.exists_of_kerase hm
  have hb : m.lookup a = some b' := mem_lookup_iff.mpr (by rw [he]; simp)
  rw [h, Option.some.injEq] at hb
  have hv : (m.erase a).values = l.map (·.snd) ++ l'.map (·.snd) := by
    rw [values, ← List.map_append, ← hk]
    rfl
  rw [hv, values, he, List.map_append, List.map_cons, hb]
  exact List.perm_middle

theorem values_adjust {m : AList fun _ : α => β} {a : α} {b : β} (h : m.lookup a = some b)
    (f : β → β) : (m.adjust a f).values = f b :: (m.erase a).values := by
  rw [adjust, h]
  rfl

omit [DecidableEq α] in
theorem values_mapValues (f : β → β) (m : AList fun _ : α => β) :
    (m.mapValues f).values = m.values.map f := by
  rw [values, mapValues, values, List.map_map, List.map_map]
  rfl

end AList
