import BatchMeans.Proofs.Series.Moments

/- Grouping block means again is grouping the readings into longer blocks.

   Blocks of `b` blocks of `a` readings are blocks of `a * b` readings
   (`blocks_blocks`), what is left over at either level included, and the mean of the
   means of a block is its mean (`reduce_reduceBlocks`). In exact numbers the means
   of the means are therefore those of the longer blocks
   (`reduceBlocks_reduceBlocks`). The checks agree as well: the block means of
   positive readings are positive, and there are `b` blocks of `a` readings exactly
   when `a * b` readings fit. -/
namespace BatchMeans.Series
variable {K : Type} [Field K] [LinearOrder K] [IsStrictOrderedRing K] {xs : List K}
  {method : MeanMethod} {a b q : ℕ}

theorem reduceBlocks_reduceBlocks (ha : 1 ≤ a) (b : ℕ) :
    reduceBlocks (reduceBlocks xs a method) b method = reduceBlocks xs (a * b) method := by
  have hblock : ∀ c ∈ blocks (a * b) xs, method.reduce (reduceBlocks c a method) = method.reduce c := by
    intro c hc
    apply reduce_reduceBlocks ha
    rw [length_of_mem_blocks hc]
    exact Nat.dvd_mul_right a b
  calc reduceBlocks (reduceBlocks xs a method) b method
      = ((blocks b (blocks a xs)).map (List.map method.reduce)).map method.reduce := by
        rw [reduceBlocks, reduceBlocks, blocks_map]
    _ = (blocks (a * b) xs).map fun c => method.reduce (reduceBlocks c a method) := by
        rw [blocks_blocks ha, List.map_map, List.map_map]
        rfl
    _ = reduceBlocks xs (a * b) method := List.map_congr_left hblock

/-- A block of all readings has their mean. -/
theorem reduceBlocks_length (hne : xs ≠ []) : reduceBlocks xs xs.length method = [method.reduce xs] := by
  have hone : xs.length / xs.length = 1 := Nat.div_self (List.length_pos_iff.mpr hne)
  rw [reduceBlocks, blocks, hone, takeBlocks, takeBlocks, List.take_length, List.map_singleton]

/-! ## Checks -/

/-- A series that both methods may be told to take means of: there are readings, and for harmonic means they
    are positive. -/
structure Groupable (xs : List K) (method : MeanMethod) : Prop where
  nonempty : xs ≠ []
  pos : method = .harmonic → ∀ x ∈ xs, 0 < x

theorem Groupable.accepts (h : Groupable xs method) : Accepts xs method :=
  accepts_of_ne_zero h.nonempty fun hm x hx => (h.pos hm x hx).ne'

theorem Groupable.reduceBlocks (h : Groupable xs method) (hq : 1 ≤ q) (hn : q ≤ xs.length) :
    Groupable (reduceBlocks xs q method) method where
  nonempty := by
    have : 1 ≤ xs.length / q := Nat.div_pos hn hq
    apply List.ne_nil_of_length_pos
    rwa [length_reduceBlocks]
  pos := by
    rintro rfl y hy
    obtain ⟨c, hc, rfl⟩ := List.mem_map.mp hy
    apply reduce_harmonic_pos (ne_nil_of_mem_blocks hq hc)
    exact fun x hx => h.pos rfl x (mem_of_mem_blocks hc hx)

theorem blockMeans_of_long (h : Accepts xs method) (hq : 1 ≤ q) (hn : xs.length < q) :
    blockMeans xs q method = .error (.invalid (.blockTooLong q xs.length)) := by
  simp [blockMeans, h.checkFinite_eq_ok, checkBlockSize, require_of hq,
    require_of_not hn.not_ge]

/-! ## Grouping twice -/

/-- The block means are taken of the block means. -/
def blockMeansTwice (xs : List K) (a b : ℕ) (method : MeanMethod) : Checked K (List K) :=
  blockMeans xs a method >>= fun means => blockMeans means b method

theorem blockMeansTwice_eq_ok (h : Groupable xs method) (ha : 1 ≤ a) (hb : 1 ≤ b)
    (hn : a * b ≤ xs.length) : blockMeansTwice xs a b method = .ok (reduceBlocks xs (a * b) method) := by
  have hdiv : b ≤ xs.length / a := by
    rw [Nat.le_div_iff_mul_le ha, Nat.mul_comm]
    exact hn
  have hle : a ≤ xs.length := (Nat.le_mul_of_pos_right a hb).trans hn
  have hsize : b ≤ (reduceBlocks xs a method).length := by rwa [length_reduceBlocks]
  rw [blockMeansTwice, blockMeans_eq_ok h.accepts ha hle, ok_bind,
    blockMeans_eq_ok (h.reduceBlocks ha hle).accepts hb hsize, reduceBlocks_reduceBlocks ha]

theorem blockMeansTwice_of_long (h : Groupable xs method) (ha : 1 ≤ a) (hb : 1 ≤ b)
    (hn : xs.length < a * b) : ∃ cause, blockMeansTwice xs a b method = .error (.invalid cause) := by
  rw [blockMeansTwice]
  -- Either no block of `a` readings fits, or fewer than `b` do.
  by_cases hle : a ≤ xs.length
  · have hdiv : xs.length / a < b := by
      rw [Nat.div_lt_iff_lt_mul ha, Nat.mul_comm]
      exact hn
    have hsize : (reduceBlocks xs a method).length < b := by rwa [length_reduceBlocks]
    rw [blockMeans_eq_ok h.accepts ha hle, ok_bind,
      blockMeans_of_long (h.reduceBlocks ha hle).accepts hb hsize]
    exact ⟨_, rfl⟩
  · rw [blockMeans_of_long h.accepts ha (Nat.lt_of_not_le hle)]
    exact ⟨_, rfl⟩

/-- **Grouping composes.** Block means of block means are the block means of the longer blocks that two
    levels make: both are given exactly when such a block fits, both break a rule otherwise, and a block
    of all readings gives their mean alone. -/
theorem blockMeansTwice_eq (hne : xs ≠ []) (hpos : method = .harmonic → ∀ x ∈ xs, 0 < x) (ha : 1 ≤ a)
    (hb : 1 ≤ b) :
    (a * b ≤ xs.length → ∃ means, blockMeansTwice xs a b method = .ok means ∧
      blockMeans xs (a * b) method = .ok means) ∧
    (xs.length < a * b → (∃ cause, blockMeansTwice xs a b method = .error (.invalid cause)) ∧
      ∃ cause, blockMeans xs (a * b) method = .error (.invalid cause)) ∧
    (a * b = xs.length → ∃ m, mean xs method = .ok m ∧ blockMeansTwice xs a b method = .ok [m] ∧
      blockMeans xs (a * b) method = .ok [m]) := by
  have h : Groupable xs method := ⟨hne, hpos⟩
  have hab : 1 ≤ a * b := Nat.mul_pos ha hb
  refine ⟨?_, ?_, ?_⟩
  · intro hn
    exact ⟨_, blockMeansTwice_eq_ok h ha hb hn, blockMeans_eq_ok h.accepts hab hn⟩
  · intro hn
    exact ⟨blockMeansTwice_of_long h ha hb hn, _, blockMeans_of_long h.accepts hab hn⟩
  · intro hn
    refine ⟨_, mean_eq_ok h.accepts, ?_, ?_⟩
    · rw [blockMeansTwice_eq_ok h ha hb hn.le, hn, reduceBlocks_length hne]
    · rw [blockMeans_eq_ok h.accepts hab hn.le, hn, reduceBlocks_length hne]

/-- Seven rates, in blocks of two and those in blocks of three, with one rate left over; the first six of
    them, which are one block; and blocks of two in blocks of four, of which there is none. -/
theorem blockMeansTwice_eq_seven :
    (∃ means, blockMeansTwice [1, 1, 2, 2, 4, 4, (3 : ℚ)] 2 3 .harmonic = .ok means ∧
      blockMeans [1, 1, 2, 2, 4, 4, (3 : ℚ)] (2 * 3) .harmonic = .ok means) ∧
    (∃ m, mean [1, 1, 2, 2, 4, (4 : ℚ)] .harmonic = .ok m ∧
      blockMeansTwice [1, 1, 2, 2, 4, (4 : ℚ)] 2 3 .harmonic = .ok [m]) ∧
    (∃ cause, blockMeansTwice [1, 1, 2, 2, 4, 4, (3 : ℚ)] 2 4 .harmonic = .error (.invalid cause)) := by
  have hseven : ∀ x ∈ [1, 1, 2, 2, 4, 4, (3 : ℚ)], 0 < x := by decide
  have hsix : ∀ x ∈ [1, 1, 2, 2, 4, (4 : ℚ)], 0 < x := by decide
  have hthree := @blockMeansTwice_eq ℚ _ _ _ _ .harmonic 2 3 (by simp) (fun _ => hseven)
    (by decide) (by decide)
  have hfour := @blockMeansTwice_eq ℚ _ _ _ _ .harmonic 2 4 (by simp) (fun _ => hseven)
    (by decide) (by decide)
  have hwhole := @blockMeansTwice_eq ℚ _ _ _ _ .harmonic 2 3 (by simp) (fun _ => hsix)
    (by decide) (by decide)
  obtain ⟨m, hmean, hblock, _⟩ := hwhole.2.2 rfl
  exact ⟨hthree.1 (by decide), ⟨m, hmean, hblock⟩, (hfour.2.1 (by decide)).1⟩

end BatchMeans.Series
