import Mathlib

namespace List

theorem mem_drop_takeWhile_length {α : Type*} {p : α → Bool} {a : α} :
    ∀ {l : List α}, a ∈ l → p a = false → a ∈ l.drop (l.takeWhile p).length
  | [], mem, _ => by cases mem
  | b :: l, mem, outside => by
    by_cases taken : p b = true
    · have later : a ∈ l := by
        rcases List.mem_cons.mp mem with same | later
        · rw [same, taken] at outside
          cases outside
        · exact later
      simpa [List.takeWhile_cons, taken] using mem_drop_takeWhile_length later outside
    · simpa [List.takeWhile_cons, taken] using mem

theorem getD_findIdx?_take {α : Type*} {p : α → Bool} {l : List α} {i : Nat} (h : i < l.length)
    (passes : p l[i] = true) : ((l.take i).findIdx? p).getD i = l.findIdx p := by
  have atMost : l.findIdx p ≤ i := Nat.le_of_not_lt fun later => by
    rw [List.not_of_lt_findIdx later] at passes
    cases passes
  have length : (l.take i).length = i := List.length_take_of_le (Nat.le_of_lt h)
  calc ((l.take i).findIdx? p).getD i = (l.take i).findIdx p := by rw [List.findIdx_eq_getD_findIdx?, length]
    _ = min i (l.findIdx p) := List.findIdx_take
    _ = l.findIdx p := Nat.min_eq_right atMost

theorem length_modifyLast {α : Type*} (f : α → α) (l : List α) : (l.modifyLast f).length = l.length := by
  rcases List.eq_nil_or_concat l with rfl | ⟨init, last, rfl⟩
  · rfl
  · simp [List.modifyLast_concat]

theorem getElem?_modifyLast_of_lt {α : Type*} (f : α → α) {l : List α} {i : Nat} (before : i + 1 < l.length) :
    (l.modifyLast f)[i]? = l[i]? := by
  rcases List.eq_nil_or_concat l with rfl | ⟨init, last, rfl⟩
  · simp at before
  · rw [List.concat_eq_append] at before ⊢
    have inInit : i < init.length := by simpa using before
    rw [List.modifyLast_concat, List.getElem?_append_left inInit, List.getElem?_append_left inInit]

theorem getLast?_modifyLast {α : Type*} (f : α → α) (l : List α) : (l.modifyLast f).getLast? = l.getLast?.map f := by
  rcases List.eq_nil_or_concat l with rfl | ⟨init, last, rfl⟩
  · rfl
  · simp [List.modifyLast_concat]

theorem sum_eq_sum_range_getD : ∀ l : List Nat, l.sum = ∑ j ∈ Finset.range l.length, l.getD j 0
  | [] => rfl
  | a :: l => by
    rw [List.sum_cons, sum_eq_sum_range_getD l, List.length_cons, Finset.sum_range_succ', Nat.add_comm]
    rfl

theorem sum_eq_of_getD_eq_off {l m : List Nat} {s : Finset Nat} (length : l.length = m.length)
    (inRange : ∀ j ∈ s, j < l.length) (inside : ∑ j ∈ s, l.getD j 0 = ∑ j ∈ s, m.getD j 0)
    (outside : ∀ j ∉ s, l.getD j 0 = m.getD j 0) : l.sum = m.sum := by
  have sub : s ⊆ Finset.range l.length := fun j mem => Finset.mem_range.mpr (inRange j mem)
  rw [sum_eq_sum_range_getD l, sum_eq_sum_range_getD m, ← length, ← Finset.sum_sdiff sub,
    ← Finset.sum_sdiff sub (f := fun j => m.getD j 0), inside]
  congr 1
  exact Finset.sum_congr rfl fun j mem => outside j (Finset.mem_sdiff.mp mem).2

theorem Nodup.index_eq_of_map {α β : Type*} {f : α → β} {l : List α} (nodup : (l.map f).Nodup) {i j : Nat}
    {a b : α} (atI : l[i]? = some a) (atJ : l[j]? = some b) (same : f a = f b) : i = j := by
  obtain ⟨hi, rfl⟩ := List.getElem?_eq_some_iff.mp atI
  obtain ⟨hj, rfl⟩ := List.getElem?_eq_some_iff.mp atJ
  have boundI : i < (l.map f).length := by simpa using hi
  have boundJ : j < (l.map f).length := by simpa using hj
  have mapped : (l.map f)[i] = (l.map f)[j] := by simpa using same
  exact nodup.getElem_inj_iff.mp mapped

theorem mem_take_add_one_iff {α : Type*} {l : List α} {n : Nat} (inside : n < l.length) {x : α} :
    x ∈ l.take (n + 1) ↔ x ∈ l.take n ∨ x = l[n] := by
  rw [List.take_add_one, List.getElem?_eq_getElem inside, List.mem_append]
  simp only [Option.toList_some, List.mem_singleton]

theorem Pairwise.rel_of_mem_take {α : Type*} {R : α → α → Prop} {l : List α} (pairwise : l.Pairwise R) {n : Nat}
    (inside : n < l.length) {x : α} (mem : x ∈ l.take n) : R x l[n] := by
  obtain ⟨m, below, rfl⟩ := List.mem_iff_getElem.1 mem
  have before : m < n := by
    simp only [List.length_take] at below
    omega
  rw [List.getElem_take]
  exact List.pairwise_iff_getElem.1 pairwise m n _ inside before

theorem pos_of_mem_take {α : Type*} {l : List α} {n : Nat} {x : α} (mem : x ∈ l.take n) : 0 < n := by
  rcases Nat.eq_zero_or_pos n with rfl | pos
  · simp at mem
  · exact pos

theorem append_eq_append_cons_of_not_mem {α : Type*} {l r u v : List α} {a : α} (split : l ++ r = u ++ a :: v)
    (outside : a ∉ r) : ∃ w, l = u ++ a :: w ∧ v = w ++ r := by
  rcases List.append_eq_append_iff.mp split with ⟨w, -, inRight⟩ | ⟨w, inLeft, rest⟩
  · exact absurd (inRight ▸ List.mem_append_right w List.mem_cons_self) outside
  · cases w with
    | nil =>
      have inRight : a ∈ [] ++ r := rest ▸ List.mem_cons_self
      exact absurd (by simpa using inRight) outside
    | cons b w =>
      obtain ⟨rfl, rfl⟩ := List.cons_eq_cons.mp rest
      exact ⟨w, inLeft, rfl⟩

theorem filter_perm_of_flip {β : Type*} {l : List β} {p q : β → Bool} {x : β} (nodup : l.Nodup) (mem : x ∈ l)
    (off : p x = false) (on : q x = true) (agree : ∀ y ∈ l, y ≠ x → p y = q y) :
    (l.filter q).Perm (l.filter p ++ [x]) := by
  obtain ⟨front, back, rfl⟩ := List.append_of_mem mem
  have outside : x ∉ front ∧ x ∉ back := by
    rw [List.nodup_append, List.nodup_cons] at nodup
    exact ⟨fun inFront => nodup.2.2 x inFront x List.mem_cons_self rfl, nodup.2.1.1⟩
  have sameFront : front.filter q = front.filter p :=
    List.filter_congr fun y inFront => (agree y (by simp [inFront]) (by rintro rfl; exact outside.1 inFront)).symm
  have sameBack : back.filter q = back.filter p :=
    List.filter_congr fun y inBack => (agree y (by simp [inBack]) (by rintro rfl; exact outside.2 inBack)).symm
  simp only [List.filter_append, List.filter_cons, on, off, if_true, Bool.false_eq_true, if_false, sameFront,
    sameBack]
  exact List.perm_middle.trans (List.perm_append_singleton x _).symm

theorem pair_sublist_or {β : Type*} {x y : β} : ∀ {l : List β}, x ∈ l → y ∈ l → x ≠ y →
    [x, y].Sublist l ∨ [y, x].Sublist l
  | z :: l, inX, inY, different => by
    rcases List.mem_cons.mp inX with rfl | laterX
    · rcases List.mem_cons.mp inY with rfl | laterY
      · exact absurd rfl different
      · exact .inl ((List.singleton_sublist.mpr laterY).cons_cons x)
    · rcases List.mem_cons.mp inY with rfl | laterY
      · exact .inr ((List.singleton_sublist.mpr laterX).cons_cons y)
      · exact (pair_sublist_or laterX laterY different).imp (·.cons z) (·.cons z)

theorem Nodup.filter_erase {β : Type*} [DecidableEq β] {l : List β} (nodup : l.Nodup) (p : β → Bool) (x : β) :
    (l.erase x).filter p = (l.filter p).erase x := by
  rw [nodup.erase_eq_filter, (nodup.filter p).erase_eq_filter, List.filter_filter, List.filter_filter]
  exact List.filter_congr fun _ _ => Bool.and_comm _ _

theorem length_foldl_append_singleton {β γ : Type*} (f : List β → γ → β) :
    ∀ (items : List γ) (nodes : List β),
      (items.foldl (fun acc i => acc ++ [f acc i]) nodes).length = nodes.length + items.length
  | [], _ => rfl
  | i :: rest, nodes => by
    simp only [List.foldl_cons, length_foldl_append_singleton f rest, List.length_append, List.length_cons,
      List.length_nil]
    omega

theorem foldl_append_of_stable {β γ : Type*} (f : List β → γ → β) (nodes : List β) (items : List γ)
    (stable : ∀ i ∈ items, ∀ extra, f (nodes ++ extra) i = f nodes i) :
    items.foldl (fun acc i => acc ++ [f acc i]) nodes = nodes ++ items.map (f nodes) := by
  suffices from_extra : ∀ extra, items.foldl (fun acc i => acc ++ [f acc i]) (nodes ++ extra) =
      nodes ++ extra ++ items.map (f nodes) by
    simpa using from_extra []
  induction items with
  | nil => simp
  | cons i rest ih =>
    intro extra
    rw [List.foldl_cons, stable i List.mem_cons_self, List.append_assoc,
      ih (fun j mem => stable j (List.mem_cons_of_mem i mem)) (extra ++ [f nodes i])]
    simp

/-- The items of `Iterator::while_some`: the values of the options up to the first `none`. -/
def whileSome {α : Type*} : List (Option α) → List α
  | some a :: rest => a :: whileSome rest
  | _ => []

@[simp] theorem whileSome_nil {α : Type*} : whileSome ([] : List (Option α)) = [] := rfl

@[simp] theorem whileSome_none_cons {α : Type*} (rest : List (Option α)) : whileSome (none :: rest) = [] := rfl

@[simp] theorem whileSome_some_cons {α : Type*} (a : α) (rest : List (Option α)) :
    whileSome (some a :: rest) = a :: whileSome rest := rfl

theorem length_whileSome_le {α : Type*} : ∀ l : List (Option α), (whileSome l).length ≤ l.length
  | [] => by simp
  | none :: _ => by simp
  | some _ :: rest => by simpa using length_whileSome_le rest

theorem mem_whileSome_map_getElem? {α : Type*} (nodes : List α) (x : α) :
    ∀ {indices : List Nat}, indices.Pairwise (· < ·) →
      (x ∈ whileSome (indices.map fun i => nodes[i]?) ↔
        ∃ i ∈ indices, ∃ inside : i < nodes.length, nodes[i] = x)
  | [], _ => by simp
  | i :: rest, increasing => by
    obtain ⟨later, increasing⟩ := List.pairwise_cons.1 increasing
    by_cases inside : i < nodes.length
    · rw [List.map_cons, List.getElem?_eq_getElem inside, whileSome_some_cons, List.mem_cons,
        mem_whileSome_map_getElem? nodes x increasing, List.exists_mem_cons_iff]
      simp [inside, eq_comm]
    · rw [List.map_cons, List.getElem?_eq_none (Nat.le_of_not_lt inside), whileSome_none_cons]
      simp only [List.not_mem_nil, false_iff, not_exists]
      rintro j ⟨mem, bound, _⟩
      rcases List.mem_cons.1 mem with rfl | mem
      · exact inside bound
      · exact inside (Nat.lt_trans (later j mem) bound)

theorem Nodup.takeWhile_bne_getElem {α : Type*} [BEq α] [LawfulBEq α] {l : List α} (nodup : l.Nodup)
    {i : Nat} (inside : i < l.length) : l.takeWhile (· != l[i]) = l.take i := by
  have before : ∀ x ∈ l.take i, (x != l[i]) = true := by
    intro x mem
    obtain ⟨j, bound, rfl⟩ := List.mem_take_iff_getElem.1 mem
    have earlier : j ≠ i := by omega
    simpa [nodup.getElem_inj_iff] using earlier
  calc l.takeWhile (· != l[i]) = (l.take i ++ l.drop i).takeWhile (· != l[i]) := by
        rw [List.take_append_drop]
    _ = l.take i ++ (l.drop i).takeWhile (· != l[i]) := List.takeWhile_append_of_pos before
    _ = l.take i := by
        rw [List.drop_eq_getElem_cons inside, List.takeWhile_cons_of_neg (by simp), List.append_nil]

theorem mapM_getElem?_of_isPrefix {α : Type*} {l l' : List α} (isPrefix : l <+: l') :
    ∀ {indexes : List Nat} {found : List α}, indexes.mapM (fun i => l[i]?) = some found →
      indexes.mapM (fun i => l'[i]?) = some found
  | [], _, read => read
  | i :: rest, found, read => by
    simp only [List.mapM_cons, Option.bind_eq_bind, Option.bind_eq_some_iff, Option.pure_def] at read ⊢
    obtain ⟨x, atIndex, xs, restRead, done⟩ := read
    obtain ⟨extra, rfl⟩ := isPrefix
    have inside : i < l.length := (List.getElem?_eq_some_iff.1 atIndex).1
    exact ⟨x, by rw [List.getElem?_append_left inside, atIndex], xs,
      mapM_getElem?_of_isPrefix (List.prefix_append l extra) restRead, done⟩

theorem Nodup.findIdx?_beq_getElem {α : Type*} [BEq α] [LawfulBEq α] {l : List α} (nodup : l.Nodup)
    {i : Nat} (inside : i < l.length) : l.findIdx? (· == l[i]) = some i := by
  refine List.findIdx?_eq_some_iff_getElem.2 ⟨inside, by simp, fun j before => ?_⟩
  have earlier : j ≠ i := by omega
  simpa [nodup.getElem_inj_iff] using earlier

end List

namespace List

section Forall₂

variable {α β γ : Type*} {R : α → β → Prop} {S : β → γ → Prop} {S' : α → β → Prop} {l₁ : List α}

theorem Forall₂.exists_of_mem_right {b : β} :
    ∀ {l₁ : List α} {l₂ : List β}, Forall₂ R l₁ l₂ → b ∈ l₂ → ∃ a ∈ l₁, R a b
  | _, _, .nil, mem => by cases mem
  | a :: _, _ :: _, .cons head tail, mem => by
    rcases List.mem_cons.mp mem with rfl | later
    · exact ⟨a, List.mem_cons_self, head⟩
    · obtain ⟨a', mem', rel⟩ := tail.exists_of_mem_right later
      exact ⟨a', List.mem_cons_of_mem _ mem', rel⟩

theorem Forall₂.compose :
    ∀ {l₁ : List α} {l₂ : List β} {l₃ : List γ}, Forall₂ R l₁ l₂ → Forall₂ S l₂ l₃ →
      Forall₂ (fun a c => ∃ b, R a b ∧ S b c) l₁ l₃
  | _, _, _, .nil, .nil => .nil
  | _, _, _, .cons r rs, .cons s ss => .cons ⟨_, r, s⟩ (rs.compose ss)

theorem Forall₂.exists_of_mem_left {a : α} :
    ∀ {l₁ : List α} {l₂ : List β}, Forall₂ R l₁ l₂ → a ∈ l₁ → ∃ b ∈ l₂, R a b
  | _, _, .nil, mem => by cases mem
  | _ :: _, b :: _, .cons head tail, mem => by
    rcases List.mem_cons.mp mem with rfl | later
    · exact ⟨b, List.mem_cons_self, head⟩
    · obtain ⟨b', mem', rel⟩ := tail.exists_of_mem_left later
      exact ⟨b', List.mem_cons_of_mem _ mem', rel⟩

theorem Forall₂.imp_of_mem_left (imp : ∀ a ∈ l₁, ∀ b, R a b → S' a b) :
    ∀ {l₁' : List α} {l₂ : List β}, l₁' ⊆ l₁ → Forall₂ R l₁' l₂ → Forall₂ S' l₁' l₂
  | _, _, _, .nil => .nil
  | _ :: _, _ :: _, sub, .cons head tail =>
    .cons (imp _ (sub List.mem_cons_self) _ head)
      (tail.imp_of_mem_left imp (fun _ mem => sub (List.mem_cons_of_mem _ mem)))

theorem Forall₂.findIdx_eq {p : α → Bool} {q : β → Bool} (agree : ∀ a ∈ l₁, ∀ b, R a b → p a = q b) :
    ∀ {l₁' : List α} {l₂ : List β}, l₁' ⊆ l₁ → Forall₂ R l₁' l₂ → l₁'.findIdx p = l₂.findIdx q
  | _, _, _, .nil => rfl
  | a :: _, b :: _, sub, .cons head tail => by
    rw [List.findIdx_cons, List.findIdx_cons, agree a (sub List.mem_cons_self) b head,
      tail.findIdx_eq agree (fun _ mem => sub (List.mem_cons_of_mem _ mem))]

theorem Forall₂.dropLast {l₂ : List β} (h : Forall₂ R l₁ l₂) : Forall₂ R l₁.dropLast l₂.dropLast := by
  rw [dropLast_eq_take, dropLast_eq_take, h.length_eq]
  exact forall₂_take _ h

theorem Forall₂.getLast? {l₂ : List β} {a : α} (h : Forall₂ R l₁ l₂) (last : l₁.getLast? = some a) :
    ∃ b, l₂.getLast? = some b ∧ R a b := by
  rw [getLast?_eq_getElem?] at last
  obtain ⟨bound, atLast⟩ := getElem?_eq_some_iff.mp last
  have bound₂ : l₁.length - 1 < l₂.length := h.length_eq ▸ bound
  refine ⟨l₂[l₁.length - 1], ?_, ?_⟩
  · rw [getLast?_eq_getElem?, ← h.length_eq, getElem?_eq_getElem bound₂]
  · rw [← atLast]
    simpa using h.get bound bound₂

end Forall₂

end List
