import Mathlib.Data.List.Basic
import BatchMeans.Series.Blocks

/- Cutting a series into blocks loses nothing but the tail.

   The complete blocks of `q` readings are consecutive stretches of exactly `q`
   readings (`length_of_mem_blocks`), and put together again they are the
   beginning of the series (`flatten_blocks`): all of it when `q` divides its
   length. The tail does not matter to them (`blocks_congr`), a longer series
   begins with the same blocks (`prefix_blocks`), and cutting the list of blocks
   again is cutting into longer blocks (`blocks_blocks`). -/
namespace BatchMeans.Series
variable {β : Type} {q count : Nat} {xs ys : List β}

theorem length_of_mem_takeBlocks : ∀ (count : Nat) (xs : List β), count * q ≤ xs.length →
    ∀ b ∈ takeBlocks q count xs, b.length = q
  | 0, _, _, _, hb => by simp [takeBlocks] at hb
  | count + 1, xs, hlen, b, hb => by
    rw [Nat.succ_mul] at hlen
    rcases List.mem_cons.mp hb with rfl | hb
    · rw [List.length_take]
      omega
    · refine length_of_mem_takeBlocks count (xs.drop q) ?_ b hb
      rw [List.length_drop]
      omega

theorem length_of_mem_blocks {b : List β} (hb : b ∈ blocks q xs) : b.length = q :=
  length_of_mem_takeBlocks _ xs (Nat.div_mul_le_self _ _) b hb

theorem ne_nil_of_mem_blocks {b : List β} (hq : 1 ≤ q) (hb : b ∈ blocks q xs) : b ≠ [] := by
  apply List.ne_nil_of_length_pos
  rwa [length_of_mem_blocks hb]

theorem flatten_takeBlocks (q : Nat) : ∀ (count : Nat) (xs : List β),
    (takeBlocks q count xs).flatten = xs.take (count * q)
  | 0, xs => by simp [takeBlocks]
  | count + 1, xs => by
    rw [takeBlocks, List.flatten_cons, flatten_takeBlocks q count, Nat.succ_mul, Nat.add_comm,
      List.take_add]

theorem flatten_blocks (q : Nat) (xs : List β) :
    (blocks q xs).flatten = xs.take (xs.length / q * q) := flatten_takeBlocks q _ xs

/-- A reading of a block is a reading of the series. -/
theorem mem_of_mem_blocks {b : List β} {x : β} (hb : b ∈ blocks q xs) (hx : x ∈ b) : x ∈ xs := by
  have hflat : x ∈ (blocks q xs).flatten := List.mem_flatten.mpr ⟨b, hb, hx⟩
  rw [flatten_blocks] at hflat
  exact List.mem_of_mem_take hflat

theorem takeBlocks_map {γ : Type} (f : β → γ) : ∀ (count : Nat) (xs : List β),
    takeBlocks q count (xs.map f) = (takeBlocks q count xs).map (List.map f)
  | 0, _ => rfl
  | count + 1, xs => by
    rw [takeBlocks, takeBlocks, List.map_cons, ← List.map_take, ← List.map_drop,
      takeBlocks_map f count]

/-- Readings may be changed one by one before the series is cut or after. -/
theorem blocks_map {γ : Type} (f : β → γ) (xs : List β) :
    blocks q (xs.map f) = (blocks q xs).map (List.map f) := by
  rw [blocks, List.length_map, takeBlocks_map, blocks]

theorem takeBlocks_replicate (x : β) : ∀ (count n : Nat), count * q ≤ n →
    takeBlocks q count (List.replicate n x) = List.replicate count (List.replicate q x)
  | 0, _, _ => rfl
  | count + 1, n, hn => by
    rw [Nat.succ_mul] at hn
    rw [takeBlocks, List.take_replicate, List.drop_replicate, takeBlocks_replicate x count _ (by omega),
      Nat.min_eq_left (by omega), List.replicate_succ]

/-- The blocks of copies of one reading are all alike. -/
theorem blocks_replicate (n : Nat) (x : β) :
    blocks q (List.replicate n x) = List.replicate (n / q) (List.replicate q x) := by
  rw [blocks, List.length_replicate, takeBlocks_replicate x _ _ (Nat.div_mul_le_self n q)]

theorem takeBlocks_one : ∀ xs : List β, takeBlocks 1 xs.length xs = xs.map fun x => [x]
  | [] => rfl
  | x :: xs => by
    show [x] :: takeBlocks 1 xs.length xs = _
    rw [takeBlocks_one xs, List.map_cons]

/-- Blocks of one reading are the readings. -/
theorem blocks_one (xs : List β) : blocks 1 xs = xs.map fun x => [x] := by
  rw [blocks, Nat.div_one, takeBlocks_one]

/-! ## Beginnings of a series -/

/-- Nothing but the readings of the blocks is looked at. -/
theorem takeBlocks_take (q count : Nat) (xs : List β) :
    takeBlocks q count (xs.take (count * q)) = takeBlocks q count xs := by
  induction count generalizing xs with
  | zero => rfl
  | succ n ih =>
    have hhead : min q ((n + 1) * q) = q := Nat.min_eq_left (Nat.le_mul_of_pos_left q n.succ_pos)
    have htail : (n + 1) * q - q = n * q := by rw [Nat.succ_mul, Nat.add_sub_cancel]
    rw [takeBlocks, takeBlocks, List.take_take, List.drop_take, hhead, htail, ih]

theorem takeBlocks_congr (h : xs.take (count * q) = ys.take (count * q)) :
    takeBlocks q count xs = takeBlocks q count ys := by
  rw [← takeBlocks_take q count xs, h, takeBlocks_take]

/-- More blocks are the first ones, and those of the readings after them. -/
theorem takeBlocks_add (q k count : Nat) (xs : List β) :
    takeBlocks q (k + count) xs = takeBlocks q k xs ++ takeBlocks q count (xs.drop (k * q)) := by
  induction k generalizing xs with
  | zero => rw [Nat.zero_add, Nat.zero_mul, List.drop_zero, takeBlocks, List.nil_append]
  | succ n ih =>
    have hdrop : q + n * q = (n + 1) * q := by rw [Nat.succ_mul, Nat.add_comm]
    rw [Nat.succ_add, takeBlocks, takeBlocks, ih, List.drop_drop, hdrop, List.cons_append]

theorem take_takeBlocks {k : Nat} (h : k ≤ count) :
    (takeBlocks q count xs).take k = takeBlocks q k xs := by
  obtain ⟨rest, rfl⟩ := Nat.exists_eq_add_of_le h
  rw [takeBlocks_add, List.take_left' (length_takeBlocks q k xs)]

/-- Series of one length that begin with the same complete blocks have the same blocks. -/
theorem blocks_congr (hlen : xs.length = ys.length)
    (h : xs.take (xs.length / q * q) = ys.take (xs.length / q * q)) : blocks q xs = blocks q ys := by
  rw [blocks, blocks, takeBlocks_congr h, hlen]

/-- A longer series begins with the blocks of the shorter one. -/
theorem prefix_blocks (h : xs <+: ys) : blocks q xs <+: blocks q ys := by
  obtain ⟨more, rfl⟩ := h
  have hmore : xs.length / q ≤ (xs ++ more).length / q := by
    apply Nat.div_le_div_right
    rw [List.length_append]
    exact Nat.le_add_right _ _
  have hbegin : xs.take (xs.length / q * q) = (xs ++ more).take (xs.length / q * q) :=
    (List.take_append_of_le_length (Nat.div_mul_le_self _ _)).symm
  rw [blocks, blocks, takeBlocks_congr hbegin, ← take_takeBlocks hmore]
  exact List.take_prefix _ _

/-! ## Blocks of blocks -/

theorem takeBlocks_takeBlocks (a b count : Nat) (xs : List β) :
    takeBlocks b count (takeBlocks a (count * b) xs) =
      (takeBlocks (a * b) count xs).map (takeBlocks a b) := by
  -- On the number of long blocks: the first of them is made of the first `b` short ones.
  induction count generalizing xs with
  | zero => rfl
  | succ n ih =>
    have hlen : (takeBlocks a b xs).length = b := length_takeBlocks a b xs
    have hsplit : takeBlocks a ((n + 1) * b) xs =
        takeBlocks a b xs ++ takeBlocks a (n * b) (xs.drop (a * b)) := by
      rw [Nat.succ_mul, Nat.add_comm, takeBlocks_add, Nat.mul_comm b a]
    have hblock : takeBlocks a b (xs.take (a * b)) = takeBlocks a b xs := by
      rw [Nat.mul_comm, takeBlocks_take]
    rw [hsplit, takeBlocks, List.take_left' hlen, List.drop_left' hlen, ih, takeBlocks, List.map_cons,
      hblock]

/-- Blocks of `b` blocks of `a` readings are blocks of `a * b` readings, each cut into blocks of `a`. -/
theorem blocks_blocks {a : Nat} (ha : 1 ≤ a) (b : Nat) (xs : List β) :
    blocks b (blocks a xs) = (blocks (a * b) xs).map (blocks a) := by
  have hwhole : xs.length / a / b * b ≤ xs.length / a := Nat.div_mul_le_self _ _
  have houter : blocks b (blocks a xs) =
      takeBlocks b (xs.length / a / b) (takeBlocks a (xs.length / a / b * b) xs) := by
    rw [blocks, length_blocks]
    apply takeBlocks_congr
    rw [blocks, take_takeBlocks hwhole, take_takeBlocks (Nat.le_refl _)]
  have hinner : ∀ c ∈ blocks (a * b) xs, blocks a c = takeBlocks a b c := by
    intro c hc
    rw [blocks, length_of_mem_blocks hc, Nat.mul_div_cancel_left b ha]
  rw [houter, takeBlocks_takeBlocks, List.map_congr_left hinner, blocks, Nat.div_div_eq_div_mul]

end BatchMeans.Series
