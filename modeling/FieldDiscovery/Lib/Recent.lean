import FieldDiscovery.Lib.Dict

/-!
# A bounded map of the most recent keys

A map that remembers the keys that were touched last, up to a bound (`touch`). After any history of
items it holds, under the last of its distinct keys, the newest item of each (`foldl_touch`); so a key
is found exactly when it is among the most recent ones, and then with its latest value
(`get_foldl_touch`).
-/

open List

namespace Recent

open Py

variable {κ α : Type*} [DecidableEq κ]

/-- `d[k] = a; d.move_to_end(k)`, and `d.popitem(last=False)` when the items are more than `n`. -/
def touch (n : ℕ) (d : Dict κ α) (p : κ × α) : Dict κ α :=
  let d := d.filter (fun q => q.1 ≠ p.1) ++ [p]
  if n < d.length then d.tail else d

theorem mem_filter_concat {d : Dict κ α} {p q : κ × α} :
    q ∈ d.filter (fun q => q.1 ≠ p.1) ++ [p] ↔ (q ∈ d ∧ q.1 ≠ p.1) ∨ q = p := by
  rw [mem_append, mem_filter, decide_eq_true_eq, mem_singleton]

theorem keysNodup_filter_concat {d : Dict κ α} (hd : d.KeysNodup) (p : κ × α) :
    Dict.KeysNodup (d.filter (fun q => q.1 ≠ p.1) ++ [p]) := by
  unfold Dict.KeysNodup at hd ⊢
  rw [map_append, map_singleton]
  refine (hd.sublist (filter_sublist.map _)).append (nodup_singleton _) ?_
  intro k hk hp
  obtain ⟨q, hq, rfl⟩ := mem_map.mp hk
  exact (of_decide_eq_true (mem_filter.mp hq).2) (mem_singleton.mp hp)

theorem touch_sublist (n : ℕ) (d : Dict κ α) (p : κ × α) :
    touch n d p <+ d.filter (fun q => q.1 ≠ p.1) ++ [p] := by
  unfold touch
  simp only
  split
  · exact tail_sublist _
  · exact Sublist.refl _

theorem keysNodup_touch {d : Dict κ α} (hd : d.KeysNodup) (n : ℕ) (p : κ × α) :
    Dict.KeysNodup (touch n d p) :=
  (keysNodup_filter_concat hd p).sublist ((touch_sublist n d p).map _)

theorem length_touch_le {n : ℕ} {d : Dict κ α} (hd : d.length ≤ n) (p : κ × α) :
    (touch n d p).length ≤ n := by
  have hle := length_filter_le (fun q : κ × α => decide (q.1 ≠ p.1)) d
  unfold touch
  simp only
  split
  · rw [length_tail, length_append, length_singleton]
    omega
  · next hle => exact Nat.not_lt.mp hle

/-! ## Histories -/

/-- The latest value of a key. -/
def latest (history : List (κ × α)) (k : κ) : Option α :=
  (history.reverse.find? fun p => p.1 = k).map Prod.snd

/-- The `n` keys that were touched last. -/
def recentKeys (n : ℕ) (history : List (κ × α)) : List κ := (history.map Prod.fst).dedup.rtake n

/-- The newest item of each key, in the order of the items. -/
def newest (history : List (κ × α)) : Dict κ α := history.pwFilter fun p q => p.1 ≠ q.1

variable {n : ℕ} {history : List (κ × α)}

theorem map_fst_newest (history : List (κ × α)) :
    (newest history).map Prod.fst = (history.map Prod.fst).dedup := by
  unfold newest dedup
  rw [pwFilter_map]

theorem keysNodup_newest (history : List (κ × α)) : (newest history).KeysNodup := by
  unfold Dict.KeysNodup
  rw [map_fst_newest]
  exact nodup_dedup _

theorem newest_concat (history : List (κ × α)) (p : κ × α) :
    newest (history ++ [p]) = (newest history).filter (fun q => q.1 ≠ p.1) ++ [p] := by
  induction history with
  | nil => exact pwFilter_cons_of_pos fun _ h => absurd h not_mem_nil
  | cons a history ih =>
    unfold newest at ih ⊢
    rw [cons_append]
    by_cases ha : ∀ q ∈ history.pwFilter fun p q => p.1 ≠ q.1, a.1 ≠ q.1
    · rw [pwFilter_cons_of_pos ha]
      by_cases hp : a.1 = p.1
      · rw [pwFilter_cons_of_neg, ih, filter_cons_of_neg (by simpa using hp)]
        rw [ih]
        intro h
        exact h p (mem_append_right _ mem_cons_self) hp
      · rw [pwFilter_cons_of_pos, ih, filter_cons_of_pos (by simpa using hp), cons_append]
        rw [ih]
        intro q hq
        rcases mem_append.mp hq with hq | hq
        · exact ha q (mem_of_mem_filter hq)
        · rw [mem_singleton.mp hq]
          exact hp
    · rw [pwFilter_cons_of_neg ha, pwFilter_cons_of_neg, ih]
      rw [ih]
      intro h
      refine ha fun q hq heq => ?_
      by_cases hqp : q.1 = p.1
      · exact h p (mem_append_right _ mem_cons_self) (heq.trans hqp)
      · exact h q (mem_append_left _ (mem_filter.mpr ⟨hq, by simpa using hqp⟩)) heq

/-! ## The map after a history -/

theorem rtake_append {β : Type*} {front back : List β} (h : n ≤ back.length) :
    (front ++ back).rtake n = back.rtake n := by
  unfold rtake
  rw [length_append, Nat.add_sub_assoc h, drop_append, drop_eq_nil_of_le (Nat.le_add_right _ _),
    nil_append, Nat.add_sub_cancel_left]

theorem rtake_of_le_succ {β : Type*} {l : List β} (h : l.length ≤ n + 1) :
    l.rtake n = if n < l.length then l.tail else l := by
  unfold rtake
  split
  · next hlt =>
    rw [show l.length - n = 1 by omega, drop_one]
  · next hle =>
    rw [show l.length - n = 0 by omega, drop_zero]

/-- One key has one item. -/
theorem length_filter_ne {d : Dict κ α} (hd : d.KeysNodup) (k : κ) :
    d.length ≤ (d.filter fun q => q.1 ≠ k).length + 1 := by
  induction d with
  | nil => exact Nat.zero_le _
  | cons p d ih =>
    unfold Dict.KeysNodup at hd
    rw [map_cons, nodup_cons] at hd
    by_cases hp : p.1 = k
    · have hrest : d.filter (fun q => q.1 ≠ k) = d := by
        rw [filter_eq_self]
        intro q hq
        rw [decide_eq_true_eq, ← hp]
        exact fun heq => hd.1 (heq ▸ mem_map_of_mem hq)
      rw [filter_cons_of_neg (by simpa using hp), hrest, length_cons]
    · rw [filter_cons_of_pos (by simpa using hp), length_cons, length_cons]
      exact Nat.succ_le_succ (ih hd.2)

theorem touch_rtake {d : Dict κ α} (hd : d.KeysNodup) (p : κ × α) :
    touch n (d.rtake n) p = (d.filter (fun q => q.1 ≠ p.1) ++ [p]).rtake n := by
  have hsplit : d.rdrop n ++ d.rtake n = d := take_append_drop _ d
  have hlength : (d.rtake n).length = d.length - (d.length - n) := by
    unfold rtake
    exact length_drop
  have hkeys : Dict.KeysNodup (d.rtake n) := by
    unfold Dict.KeysNodup at hd ⊢
    exact hd.sublist ((drop_sublist _ d).map _)
  have hle := length_filter_le (fun q : κ × α => decide (q.1 ≠ p.1)) (d.rtake n)
  have hge := length_filter_ne hkeys p.1
  have hfilter : d.filter (fun q => q.1 ≠ p.1) ++ [p] = (d.rdrop n).filter (fun q => q.1 ≠ p.1) ++
      ((d.rtake n).filter (fun q => q.1 ≠ p.1) ++ [p]) := by
    conv_lhs => rw [← hsplit, filter_append, append_assoc]
  have hbound : ((d.rtake n).filter (fun q => q.1 ≠ p.1) ++ [p]).length ≤ n + 1 := by
    rw [length_append, length_singleton]
    omega
  rw [touch, hfilter, ← rtake_of_le_succ hbound]
  by_cases hd : d.length ≤ n
  · -- everything is recent
    have hnil : d.rdrop n = [] := by
      unfold rdrop
      rw [Nat.sub_eq_zero_of_le hd, take_zero]
    rw [hnil, filter_nil, nil_append]
  · refine (rtake_append ?_).symm
    rw [length_append, length_singleton]
    omega

theorem foldl_touch (n : ℕ) (history : List (κ × α)) :
    history.foldl (touch n) [] = (newest history).rtake n := by
  induction history using List.reverseRecOn with
  | nil => simp [newest]
  | append_singleton history p ih =>
    rw [foldl_append, foldl_cons, foldl_nil, ih, touch_rtake (keysNodup_newest history),
      newest_concat]

theorem length_foldl_touch (n : ℕ) (history : List (κ × α)) :
    (history.foldl (touch n) []).length ≤ n := by
  rw [foldl_touch]
  unfold rtake
  rw [length_drop]
  omega

/-! ## Finding a key -/

theorem get_append (d e : Dict κ α) (k : κ) :
    Dict.get (d ++ e) k = (Dict.get d k).or (Dict.get e k) := by
  induction d with
  | nil => rfl
  | cons p d ih =>
    by_cases hp : p.1 = k
    · simp [Dict.get, hp]
    · simp [Dict.get, hp, ih]

theorem get_filter_ne (d : Dict κ α) {k k' : κ} (h : k' ≠ k) :
    Dict.get (d.filter fun q => q.1 ≠ k') k = d.get k := by
  induction d with
  | nil => rfl
  | cons p d ih =>
    by_cases hp : p.1 = k'
    · rw [filter_cons_of_neg (by simpa using hp), ih, Dict.get, if_neg (hp ▸ h)]
    · rw [filter_cons_of_pos (by simpa using hp), Dict.get, Dict.get, ih]

theorem get_newest (history : List (κ × α)) (k : κ) : (newest history).get k = latest history k := by
  induction history using List.reverseRecOn with
  | nil => simp [newest, latest, Dict.get]
  | append_singleton history p ih =>
    rw [newest_concat, get_append]
    unfold latest
    rw [reverse_append, reverse_singleton, singleton_append, find?_cons]
    by_cases hp : p.1 = k
    · have hnone : Dict.get ((newest history).filter fun q => q.1 ≠ p.1) k = none := by
        rw [Dict.get_eq_none, mem_map]
        rintro ⟨q, hq, hqk⟩
        exact absurd (hqk.trans hp.symm) (of_decide_eq_true (mem_filter.mp hq).2)
      rw [hnone]
      simp [Dict.get, hp]
    · rw [get_filter_ne _ hp, ih]
      simp [Dict.get, hp, latest]

/-- A key is found exactly when it is among the most recent ones, and then with its latest value. -/
theorem get_foldl_touch (n : ℕ) (history : List (κ × α)) (k : κ) :
    (history.foldl (touch n) []).get k =
      if k ∈ recentKeys n history then latest history k else none := by
  rw [foldl_touch]
  have hmap : ((newest history).rtake n).map Prod.fst = recentKeys n history := by
    unfold recentKeys
    rw [← map_fst_newest]
    unfold rtake
    rw [map_drop, length_map]
  have hkeys : Dict.KeysNodup ((newest history).rtake n) := by
    have hnewest := keysNodup_newest history
    unfold Dict.KeysNodup at hnewest ⊢
    exact hnewest.sublist ((drop_sublist _ _).map _)
  by_cases hk : k ∈ recentKeys n history
  · rw [if_pos hk, ← get_newest]
    rw [← hmap, mem_map] at hk
    obtain ⟨⟨k', a⟩, hmem, rfl⟩ := hk
    rw [Dict.get_of_mem hkeys hmem]
    exact (Dict.get_of_mem (keysNodup_newest history) (mem_of_mem_drop hmem)).symm
  · rw [if_neg hk, Dict.get_eq_none, hmap]
    exact hk

end Recent
