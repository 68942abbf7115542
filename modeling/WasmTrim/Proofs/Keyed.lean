import Mathlib.Data.List.Induction
import Mathlib.Data.List.Nodup

/-!
# Lists with one item for each key

An item that is put into such a list takes the place of the one with its key, and the end of the
list where its key is new. So the keys come in the order in which they were first put, and each
comes with the item that was put last: this is `Keyed.Latest`, which tells a list from all that was
put into it.

## Implementation notes

Nothing is assumed of a list that items are put into, where possible. Only what is put into a list
in place of a whole list of its own must have distinct keys: of two items with one key the first is
replaced and the second stays.
-/

namespace WasmTrim.Keyed

variable {α β κ : Type} [DecidableEq κ] {key : α → κ} {key' : β → κ} {a b : α}
variable {known items log front back entries others : List α}

/-- Puts an item in place of the first one with its key, or at the end where there is none. -/
def place (key : α → κ) (known : List α) (a : α) : List α :=
  match known with
  | [] => [a]
  | b :: rest => if key b = key a then a :: rest else b :: place key rest a

/-- Puts items one after another. -/
def placeAll (key : α → κ) (known items : List α) : List α :=
  items.foldl (place key) known

/-- What a log of items comes to: the keys in the order in which they first come up, each with its
last item. -/
structure Latest (key : α → κ) (log entries : List α) : Prop where
  /-- The keys come in the order in which they first come up. -/
  keys_eq : entries.map key = (log.map key).eraseDups
  /-- Nothing with the key of an item follows the item in the log. -/
  last : ∀ a ∈ entries, ∃ before after, log = before ++ a :: after ∧ key a ∉ after.map key

/-! ### One item -/

/-- A new key comes last. -/
theorem place_of_not_mem (h : key a ∉ known.map key) : place key known a = known ++ [a] := by
  induction known with
  | nil => rfl
  | cons b rest ih =>
      rw [List.map_cons, List.mem_cons, not_or] at h
      rw [place, if_neg (Ne.symm h.1), ih h.2, List.cons_append]

/-- The first item with the key is replaced. -/
theorem place_append_cons (hkey : key b = key a) (hfront : key a ∉ front.map key) :
    place key (front ++ b :: back) a = front ++ a :: back := by
  induction front with
  | nil => exact if_pos hkey
  | cons c rest ih =>
      rw [List.map_cons, List.mem_cons, not_or] at hfront
      rw [List.cons_append, place, if_neg (Ne.symm hfront.1), ih hfront.2, List.cons_append]

/-- A key that is known has a first item. -/
theorem exists_first (h : key a ∈ known.map key) :
    ∃ front b back, known = front ++ b :: back ∧ key b = key a ∧ key a ∉ front.map key := by
  induction known with
  | nil => cases h
  | cons c rest ih =>
      by_cases hc : key c = key a
      · exact ⟨[], c, rest, rfl, hc, List.not_mem_nil⟩
      · rw [List.map_cons, List.mem_cons] at h
        obtain ⟨front, b, back, rfl, hb, hfront⟩ := ih (h.resolve_left (Ne.symm hc))
        refine ⟨c :: front, b, back, rfl, hb, ?_⟩
        rw [List.map_cons, List.mem_cons, not_or]
        exact ⟨Ne.symm hc, hfront⟩

theorem map_place (key : α → κ) (known : List α) (a : α) :
    (place key known a).map key =
      if key a ∈ known.map key then known.map key else known.map key ++ [key a] := by
  split
  · next h =>
    obtain ⟨front, b, back, rfl, hb, hfront⟩ := exists_first h
    rw [place_append_cons hb hfront, List.map_append, List.map_append, List.map_cons,
      List.map_cons, hb]
  · next h => rw [place_of_not_mem h, List.map_append, List.map_singleton]

/-- Keys are known of items, and of the one that was put. -/
theorem mem_map_place {k : κ} :
    k ∈ (place key known a).map key ↔ k ∈ known.map key ∨ k = key a := by
  rw [map_place]
  split
  · next h =>
    constructor
    · exact Or.inl
    · rintro (hk | rfl)
      · exact hk
      · exact h
  · rw [List.mem_append, List.mem_singleton]

theorem nodup_place (h : (known.map key).Nodup) (a : α) :
    ((place key known a).map key).Nodup := by
  rw [map_place]
  split
  · exact h
  · next hnew =>
    rw [← List.concat_eq_append]
    exact h.concat hnew

/-- Of two items with one key the second stays. -/
theorem place_place_of_eq (h : key b = key a) (known : List α) :
    place key (place key known b) a = place key known a := by
  induction known with
  | nil => exact if_pos h
  | cons c rest ih =>
      by_cases hc : key c = key b
      · rw [place, if_pos hc, place, if_pos h, place, if_pos (hc.trans h)]
      · rw [place, if_neg hc, place, if_neg (h ▸ hc), ih, place, if_neg (h ▸ hc)]

/-- Items with different keys can be put in either order if one of the keys is known. -/
theorem place_comm (hne : key a ≠ key b) (h : key a ∈ known.map key) :
    place key (place key known b) a = place key (place key known a) b := by
  induction known with
  | nil => cases h
  | cons c rest ih =>
      by_cases ha : key c = key a
      · have hb : key c ≠ key b := fun hb => hne (ha.symm.trans hb)
        rw [place, if_neg hb, place, if_pos ha, place, if_pos ha, place, if_neg hne]
      · rw [List.map_cons, List.mem_cons] at h
        have hrest := h.resolve_left (Ne.symm ha)
        by_cases hb : key c = key b
        · rw [place, if_pos hb, place, if_neg (Ne.symm hne), place, if_neg ha, place, if_pos hb]
        · rw [place, if_neg hb, place, if_neg ha, ih hrest, place, if_neg ha, place, if_neg hb]

/-- An item that is there already changes nothing. -/
theorem place_of_mem (h : (known.map key).Nodup) (ha : a ∈ known) : place key known a = known := by
  obtain ⟨front, back, rfl⟩ := List.append_of_mem ha
  rw [List.map_append, List.map_cons] at h
  apply place_append_cons rfl
  intro hfront
  exact (List.disjoint_of_nodup_append h) hfront (List.mem_cons_self ..)

/-! ### Many items -/

theorem placeAll_append (key : α → κ) (known items others : List α) :
    placeAll key known (items ++ others) = placeAll key (placeAll key known items) others :=
  List.foldl_append

theorem nodup_placeAll (h : (known.map key).Nodup) (items : List α) :
    ((placeAll key known items).map key).Nodup := by
  induction items generalizing known with
  | nil => exact h
  | cons a rest ih => exact ih (nodup_place h a)

theorem nodup_placeAll_nil (key : α → κ) (items : List α) :
    ((placeAll key [] items).map key).Nodup := by
  apply nodup_placeAll
  exact List.nodup_nil

/-- An item goes in front of items with other keys if its own is known. -/
theorem place_placeAll (hnew : key a ∉ items.map key) (h : key a ∈ known.map key) :
    place key (placeAll key known items) a = placeAll key (place key known a) items := by
  induction items generalizing known with
  | nil => rfl
  | cons b rest ih =>
      rw [List.map_cons, List.mem_cons, not_or] at hnew
      have hlater : place key (placeAll key (place key known b) rest) a =
          placeAll key (place key (place key known b) a) rest :=
        ih hnew.2 (mem_map_place.mpr (Or.inl h))
      rw [place_comm hnew.1 h] at hlater
      exact hlater

/-- Putting a list into which an item was put is putting the list and then the item. -/
theorem placeAll_place (h : (items.map key).Nodup) (known : List α) (a : α) :
    placeAll key known (place key items a) = place key (placeAll key known items) a := by
  by_cases ha : key a ∈ items.map key
  · obtain ⟨front, b, back, rfl, hb, hfront⟩ := exists_first ha
    rw [List.map_append, List.map_cons] at h
    have hback : key a ∉ back.map key := by
      rw [← hb]
      exact (List.nodup_cons.mp (List.nodup_append.mp h).2.1).1
    rw [place_append_cons hb hfront, placeAll_append, placeAll_append]
    change placeAll key (place key (placeAll key known front) a) back =
      place key (placeAll key (place key (placeAll key known front) b) back) a
    rw [place_placeAll hback (mem_map_place.mpr (Or.inr hb.symm)), place_place_of_eq hb]
  · rw [place_of_not_mem ha, placeAll_append]
    rfl

/-- Putting a list into which others were put is putting the list and then the others. -/
theorem placeAll_placeAll (h : (items.map key).Nodup) (known others : List α) :
    placeAll key known (placeAll key items others) =
      placeAll key (placeAll key known items) others := by
  induction others generalizing items with
  | nil => rfl
  | cons a rest ih =>
      have hrest := ih (nodup_place h a)
      rw [placeAll_place h] at hrest
      exact hrest

/-- Putting the list that items make is putting the items. -/
theorem placeAll_placeAll_nil (key : α → κ) (known others : List α) :
    placeAll key known (placeAll key [] others) = placeAll key known others := by
  have hnil : (([] : List α).map key).Nodup := List.nodup_nil
  rw [placeAll_placeAll hnil]
  rfl

/-- Items that are there already change nothing. -/
theorem placeAll_of_subset (h : (known.map key).Nodup) (hitems : ∀ a ∈ items, a ∈ known) :
    placeAll key known items = known := by
  induction items with
  | nil => rfl
  | cons a rest ih =>
      rw [List.forall_mem_cons] at hitems
      change placeAll key (place key known a) rest = known
      rw [place_of_mem h hitems.1]
      exact ih hitems.2

/-- Putting a list twice is putting it once. -/
theorem placeAll_twice (h : (items.map key).Nodup) (known : List α) :
    placeAll key (placeAll key known items) items = placeAll key known items := by
  rw [← placeAll_placeAll h, placeAll_of_subset h fun _ ha => ha]

/-- Items with distinct keys make a list of themselves. -/
theorem placeAll_nil (h : (items.map key).Nodup) : placeAll key [] items = items := by
  induction items using List.reverseRecOn with
  | nil => rfl
  | append_singleton front a ih =>
      rw [List.map_append, List.map_singleton, ← List.concat_eq_append, List.nodup_concat] at h
      rw [placeAll_append, ih h.2]
      exact place_of_not_mem h.1

/-- Items may be renamed before or after one is put, if their keys are kept apart. -/
theorem map_place_of_keys (key : α → κ) (key' : β → κ) {f : α → β}
    (hkeys : ∀ a b, key' (f a) = key' (f b) ↔ key a = key b)
    (known : List α) (a : α) :
    (place key known a).map f = place key' (known.map f) (f a) := by
  induction known with
  | nil => rfl
  | cons b rest ih =>
      by_cases hb : key b = key a
      · rw [place, if_pos hb, List.map_cons, List.map_cons, place, if_pos ((hkeys b a).mpr hb)]
      · rw [place, if_neg hb, List.map_cons, List.map_cons, place,
          if_neg (mt (hkeys b a).mp hb), ih]

theorem map_placeAll (key : α → κ) (key' : β → κ) {f : α → β}
    (hkeys : ∀ a b, key' (f a) = key' (f b) ↔ key a = key b)
    (known items : List α) :
    (placeAll key known items).map f = placeAll key' (known.map f) (items.map f) := by
  induction items generalizing known with
  | nil => rfl
  | cons a rest ih =>
      have hrest := ih (place key known a)
      rw [map_place_of_keys key key' hkeys] at hrest
      exact hrest

/-! ### What a log comes to -/

/-- What is there after an item was put is the item, or it was there before and has another key. -/
theorem mem_place (hnodup : (known.map key).Nodup) (h : b ∈ place key known a) :
    b = a ∨ b ∈ known ∧ key a ≠ key b := by
  by_cases ha : key a ∈ known.map key
  · obtain ⟨front, c, back, rfl, hc, hfront⟩ := exists_first ha
    rw [place_append_cons hc hfront, List.mem_append, List.mem_cons] at h
    rw [List.map_append, List.map_cons] at hnodup
    have hback : key a ∉ back.map key := by
      rw [← hc]
      exact (List.nodup_cons.mp (List.nodup_append.mp hnodup).2.1).1
    rcases h with hmem | rfl | hmem
    · refine Or.inr ⟨List.mem_append_left _ hmem, fun hkey => hfront ?_⟩
      rw [hkey]
      exact List.mem_map_of_mem hmem
    · exact Or.inl rfl
    · refine Or.inr ⟨List.mem_append_right _ (List.mem_cons_of_mem _ hmem), fun hkey => hback ?_⟩
      rw [hkey]
      exact List.mem_map_of_mem hmem
  · rw [place_of_not_mem ha, List.mem_append, List.mem_singleton] at h
    rcases h with hmem | rfl
    · refine Or.inr ⟨hmem, fun hkey => ha ?_⟩
      rw [hkey]
      exact List.mem_map_of_mem hmem
    · exact Or.inl rfl

/-- One more key comes last if it is new. -/
theorem eraseDups_append_singleton (keys : List κ) (k : κ) :
    (keys ++ [k]).eraseDups = if k ∈ keys then keys.eraseDups else keys.eraseDups ++ [k] := by
  rw [List.eraseDups_append]
  split
  · next h => simp [List.removeAll, h]
  · next h => simp [List.removeAll, h, List.eraseDups_cons]

/-- Putting an item is adding it to the log. -/
theorem Latest.place (h : Latest key log entries) (hnodup : (entries.map key).Nodup) (a : α) :
    Latest key (log ++ [a]) (place key entries a) where
  keys_eq := by
    simp only [map_place, List.map_append, List.map_singleton, eraseDups_append_singleton,
      h.keys_eq, List.mem_eraseDups]
  last := by
    intro b hb
    rcases mem_place hnodup hb with rfl | ⟨hold, hne⟩
    · exact ⟨log, [], rfl, List.not_mem_nil⟩
    · obtain ⟨before, after, rfl, hafter⟩ := h.last b hold
      refine ⟨before, after ++ [a], by rw [List.append_assoc, List.cons_append], ?_⟩
      rw [List.map_append, List.map_singleton, List.mem_append, List.mem_singleton, not_or]
      exact ⟨hafter, Ne.symm hne⟩

theorem latest_placeAll (key : α → κ) (log : List α) : Latest key log (placeAll key [] log) := by
  induction log using List.reverseRecOn with
  | nil => exact ⟨rfl, fun _ ha => absurd ha List.not_mem_nil⟩
  | append_singleton front a ih =>
      rw [placeAll_append]
      exact ih.place (nodup_placeAll_nil key front) a

omit [DecidableEq κ] in
/-- The last item of a key is one item. -/
theorem eq_of_last {before after before' after' : List α}
    (h : log = before ++ a :: after) (hafter : key a ∉ after.map key)
    (h' : log = before' ++ b :: after') (hafter' : key b ∉ after'.map key)
    (hkey : key a = key b) : a = b := by
  rw [h, List.append_eq_append_iff] at h'
  rcases h' with ⟨between, _, hback⟩ | ⟨between, _, hback⟩
  · cases between with
    | nil => exact (List.cons.inj hback).1
    | cons c between =>
        obtain ⟨_, rfl⟩ := List.cons.inj hback
        refine absurd ?_ hafter
        rw [hkey]
        exact List.mem_map_of_mem (List.mem_append_right _ (List.mem_cons_self ..))
  · cases between with
    | nil => exact (List.cons.inj hback).1.symm
    | cons c between =>
        obtain ⟨_, rfl⟩ := List.cons.inj hback
        refine absurd ?_ hafter'
        rw [← hkey]
        exact List.mem_map_of_mem (List.mem_append_right _ (List.mem_cons_self ..))

omit [DecidableEq κ] in
/-- Lists with the same keys are equal if their items are. -/
theorem eq_of_map_eq (hkeys : entries.map key = others.map key)
    (h : ∀ a ∈ entries, ∀ b ∈ others, key a = key b → a = b) : entries = others := by
  induction entries generalizing others with
  | nil => exact (List.map_eq_nil_iff.mp hkeys.symm).symm
  | cons a rest ih =>
      cases others with
      | nil => cases hkeys
      | cons b others =>
          obtain ⟨hkey, hkeys⟩ := List.cons.inj hkeys
          rw [h a (List.mem_cons_self ..) b (List.mem_cons_self ..) hkey]
          congr 1
          exact ih hkeys fun c hc d hd =>
            h c (List.mem_cons_of_mem _ hc) d (List.mem_cons_of_mem _ hd)

/-- A log comes to one list only. -/
theorem Latest.unique (h : Latest key log entries) (h' : Latest key log others) :
    entries = others := by
  apply eq_of_map_eq (h.keys_eq.trans h'.keys_eq.symm)
  intro a ha b hb hkey
  obtain ⟨_, _, hlog, hafter⟩ := h.last a ha
  obtain ⟨_, _, hlog', hafter'⟩ := h'.last b hb
  exact eq_of_last hlog hafter hlog' hafter' hkey

theorem latest_iff : Latest key log entries ↔ entries = placeAll key [] log := by
  constructor
  · exact fun h => h.unique (latest_placeAll key log)
  · rintro rfl
    exact latest_placeAll key log

end WasmTrim.Keyed
