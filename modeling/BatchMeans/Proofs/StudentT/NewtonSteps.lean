import Mathlib.Analysis.Convex.Deriv
import Mathlib.Analysis.SpecialFunctions.Trigonometric.ArctanDeriv
import Mathlib.Topology.Algebra.Module.ModuleTopology
import BatchMeans.Proofs.Analysis.LevelOrder

/- Polishing a critical value never passes the root.

   To the right of zero the density of Student's t falls, so its tail is convex: it lies on or above each
   of its tangents (`ConvexTail`, `ConvexTail.of_hasDerivAt`). A Newton step follows the tangent to where it
   takes the probability that is sought, and the tail takes it no earlier. So a step from anywhere ends at or
   before the root (`newtonStep_le`), and a step from before the root goes toward it (`le_newtonStep`). The
   loop ends in two ways, at a value that it cannot step from and after a step that is negligible; in both it
   keeps the value it has reached, so both bounds carry over to any number of steps. The value after
   `steps` steps is `polish law df alpha steps start`. -/
namespace BatchMeans.StudentT

variable {law : TailLaw ℝ} {df : ℕ} {alpha level root start t : ℝ}

/-! ## Convex tails -/

/-- To the right of zero the tail lies on or above each of its tangents, which all go down. -/
structure ConvexTail (law : TailLaw ℝ) (df : ℕ) : Prop where
  density_pos : ∀ t, 0 < t → 0 < law.density df t
  tangent : ∀ s t, 0 < s → 0 < t → law.upperTail df t - law.density df t * (s - t) ≤ law.upperTail df s

/-- Such a tail falls. -/
theorem ConvexTail.strictAntiOn (h : ConvexTail law df) : StrictAntiOn (law.upperTail df) (Set.Ioi 0) := by
  intro s hs t ht hst
  have hdrop := mul_neg_of_pos_of_neg (h.density_pos t ht) (sub_neg.mpr hst)
  have htangent := h.tangent s t hs ht
  linarith

/-- A density that falls has a convex tail. -/
theorem ConvexTail.of_hasDerivAt (hpos : ∀ t, 0 < t → 0 < law.density df t)
    (hfall : AntitoneOn (law.density df) (Set.Ioi 0))
    (hderiv : ∀ t, 0 < t → HasDerivAt (law.upperTail df) (-law.density df t) t) : ConvexTail law df := by
  have hdiff : ∀ t ∈ Set.Ioi (0 : ℝ), DifferentiableAt ℝ (law.upperTail df) t :=
    fun t ht => (hderiv t ht).differentiableAt
  have hmono : MonotoneOn (deriv (law.upperTail df)) (Set.Ioi 0) := by
    intro s hs t ht hst
    rw [(hderiv s hs).deriv, (hderiv t ht).deriv]
    exact neg_le_neg (hfall hs ht hst)
  have hconvex : ConvexOn ℝ (Set.Ioi 0) (law.upperTail df) := by
    apply MonotoneOn.convexOn_of_deriv (convex_Ioi 0)
    · exact fun t ht => (hdiff t ht).continuousAt.continuousWithinAt
    · rw [interior_Ioi]
      exact fun t ht => (hdiff t ht).differentiableWithinAt
    · rwa [interior_Ioi]
  refine ⟨hpos, fun s t hs ht => ?_⟩
  -- The slope of a chord is at most that of the tangent on its right, and at least that of the one on its left.
  rcases lt_trichotomy s t with hlt | rfl | hlt
  · have hslope := hconvex.slope_le_of_hasDerivAt hs ht hlt (hderiv t ht)
    rw [slope_def_field, div_le_iff₀ (sub_pos.mpr hlt)] at hslope
    linarith
  · simp
  · have hslope := hconvex.le_slope_of_hasDerivAt ht hs hlt (hderiv t ht)
    rw [slope_def_field, le_div_iff₀ (sub_pos.mpr hlt)] at hslope
    linarith

/-! ## One step -/

/-- Where the tangent at `t` takes the probability `alpha`. -/
noncomputable def newtonStep (law : TailLaw ℝ) (df : ℕ) (alpha t : ℝ) : ℝ :=
  t - (alpha - law.upperTail df t) / law.density df t

section Step
variable (h : ConvexTail law df) (hroot : 0 < root) (htail : law.upperTail df root = alpha)
include h hroot htail

theorem newtonStep_le (ht : 0 < t) : newtonStep law df alpha t ≤ root := by
  have hdensity := h.density_pos t ht
  -- The tangent at `t` is at most `alpha` at the root, so it has come down to `alpha` there or before.
  have htangent := h.tangent root t hroot ht
  rw [htail] at htangent
  have hstep : t - root ≤ (alpha - law.upperTail df t) / law.density df t := by
    rw [le_div_iff₀ hdensity]
    linarith
  exact sub_le_comm.mp hstep

theorem le_newtonStep (ht : 0 < t) (hle : t ≤ root) : t ≤ newtonStep law df alpha t := by
  have hfall : alpha ≤ law.upperTail df t := htail ▸ h.strictAntiOn.antitoneOn ht hroot hle
  have hstep : (alpha - law.upperTail df t) / law.density df t ≤ 0 :=
    div_nonpos_of_nonpos_of_nonneg (sub_nonpos.mpr hfall) (h.density_pos t ht).le
  exact (le_sub_self_iff t).mpr hstep

end Step

/-! ## The loop -/

theorem polish_of_nonpos (ht : t ≤ 0) (steps : ℕ) : polish law df alpha steps t = t :=
  Series.polish_of_not_isPositive (mt (Exact.isPositive_iff t).mp ht.not_gt) df alpha steps

/-- From a positive value it takes a step, and either ends there or goes on from there. -/
theorem polish_succ (hdensity : 0 < law.density df t) (ht : 0 < t) :
    (∀ steps, polish law df alpha (steps + 1) t = newtonStep law df alpha t) ∨
      ∀ steps, polish law df alpha (steps + 1) t = polish law df alpha steps (newtonStep law df alpha t) := by
  have hstep : 0 < law.density df t ∧ Arith.IsPositive t := ⟨hdensity, (Exact.isPositive_iff t).mpr ht⟩
  by_cases hend : isNegligible ((alpha - law.upperTail df t) / law.density df t) (newtonStep law df alpha t) = true
  · exact .inl fun steps => (if_pos hstep).trans (if_pos hend)
  · exact .inr fun steps => (if_pos hstep).trans (if_neg hend)

theorem polish_one (hdensity : 0 < law.density df t) (ht : 0 < t) :
    polish law df alpha 1 t = newtonStep law df alpha t := by
  rcases polish_succ hdensity ht with hend | hgo
  · exact hend 0
  · exact hgo 0

section Run
variable (h : ConvexTail law df) (hroot : 0 < root) (htail : law.upperTail df root = alpha)
include h hroot htail

/-- From before the root, one more step leads toward it and not past it. -/
theorem polish_mem_Icc (hle : t ≤ root) (steps : ℕ) :
    polish law df alpha (steps + 1) t ∈ Set.Icc (polish law df alpha steps t) root := by
  -- The induction is on the steps after the first one, which changes the value that they start from.
  induction steps generalizing t with
  | zero =>
    rcases le_or_gt t 0 with hstay | ht
    · rw [polish_of_nonpos hstay, polish_of_nonpos hstay]
      exact ⟨le_rfl, hle⟩
    · rw [polish_one (h.density_pos t ht) ht]
      exact ⟨le_newtonStep h hroot htail ht hle, newtonStep_le h hroot htail ht⟩
  | succ steps ih =>
    rcases le_or_gt t 0 with hstay | ht
    · rw [polish_of_nonpos hstay, polish_of_nonpos hstay]
      exact ⟨le_rfl, hle⟩
    · have hnext := newtonStep_le h hroot htail ht
      rcases polish_succ (h.density_pos t ht) ht with hend | hgo
      · rw [hend, hend]
        exact ⟨le_rfl, hnext⟩
      · rw [hgo, hgo]
        exact ih hnext

theorem polish_le (hle : t ≤ root) (steps : ℕ) : polish law df alpha steps t ≤ root := by
  cases steps with
  | zero => exact hle
  | succ steps => exact (polish_mem_Icc h hroot htail hle steps).2

/-- From any positive value, the first step leads to or before the root, and no later one past it. -/
theorem polish_succ_le (ht : 0 < t) (steps : ℕ) : polish law df alpha (steps + 1) t ≤ root := by
  have hnext := newtonStep_le h hroot htail ht
  rcases polish_succ (h.density_pos t ht) ht with hend | hgo
  · rw [hend]
    exact hnext
  · rw [hgo]
    exact polish_le h hroot htail hnext steps

end Run

/-- **Polishing never passes the root.** Let the tail be convex and take the tail probability of the level at a
    root to the right of zero. From a starting quantile at or before the root every step leads toward it and not
    past it, and so does the critical value; from one past the root no value after the first step is past it. -/
theorem criticalValue_le_root (hlevel : 0 < level ∧ level < 1) (hdf : 1 ≤ df) (h : ConvexTail law df)
    (hroot : 0 < root) (htail : law.upperTail df root = tailOfLevel level)
    (hstart : law.quantile df (1 - tailOfLevel level) = start) :
    criticalValue law df level = .ok (polish law df (tailOfLevel level) 4 start) ∧
    (start ≤ root →
      (∀ steps, polish law df (tailOfLevel level) (steps + 1) start ∈
        Set.Icc (polish law df (tailOfLevel level) steps start) root) ∧
      polish law df (tailOfLevel level) 4 start ∈ Set.Icc start root) ∧
    (root < start → ∀ steps, polish law df (tailOfLevel level) (steps + 1) start ≤ root) := by
  refine ⟨?_, fun hle => ⟨polish_mem_Icc h hroot htail hle, ?_⟩, fun hlt => ?_⟩
  · rw [Series.criticalValue_eq_polish law hlevel hdf, hstart]
  · have hup : Monotone fun steps => polish law df (tailOfLevel level) steps start :=
      monotone_nat_of_le_succ fun steps => (polish_mem_Icc h hroot htail hle steps).1
    exact ⟨hup (Nat.zero_le 4), polish_le h hroot htail hle 4⟩
  · exact polish_succ_le h hroot htail (hroot.trans hlt)

/-! ## Quantiles to a tenth -/

section Grid
open Real
variable {round : ℝ → ℤ} {unit : ℝ} {multiple : ℤ}

/-- Student's t with one degree of freedom, whose quantiles are rounded to multiples of a unit. -/
noncomputable def gridLaw (round : ℝ → ℤ) (unit : ℝ) : TailLaw ℝ :=
  { Series.cauchyLaw with quantile := fun df p => round (Series.cauchyLaw.quantile df p / unit) * unit }

theorem convexTail_cauchyLaw (df : ℕ) : ConvexTail Series.cauchyLaw df := by
  refine .of_hasDerivAt (fun t _ => Series.density_cauchyLaw_pos df t) (fun s hs t _ hst => ?_) fun t _ => ?_
  · show 1 / (π * (1 + t ^ 2)) ≤ 1 / (π * (1 + s ^ 2))
    have hsq : s ^ 2 ≤ t ^ 2 := pow_le_pow_left₀ (le_of_lt hs) hst 2
    gcongr
  · have hderiv := ((hasDerivAt_arctan t).div_const π).const_sub (1 / 2)
    rwa [div_div, mul_comm (1 + t ^ 2)] at hderiv

/-- Rounded quantiles leave the tail and the density as they are. -/
theorem convexTail_gridLaw (round : ℝ → ℤ) (unit : ℝ) (df : ℕ) : ConvexTail (gridLaw round unit) df :=
  ⟨(convexTail_cauchyLaw df).density_pos, (convexTail_cauchyLaw df).tangent⟩

/-- The quantile at a level of two thirds. -/
theorem quantile_two_thirds : Series.cauchyLaw.quantile 1 (1 - tailOfLevel (2 / 3)) = √3 := by
  show tan (π * (1 - (1 - 2 / 3) / 2 - 1 / 2)) = √3
  rw [← tan_pi_div_three]
  congr 1
  ring

theorem upperTail_sqrt_three : Series.cauchyLaw.upperTail 1 √3 = tailOfLevel (2 / 3) := by
  have halpha : tailOfLevel (2 / 3 : ℝ) = 1 / 6 := by
    norm_num [tailOfLevel]
  rw [← quantile_two_thirds, halpha]
  exact (Series.quantile_cauchyLaw 1 (by norm_num) (by norm_num)).2

theorem quantile_gridLaw (h : round (√3 / unit) = multiple) :
    (gridLaw round unit).quantile 1 (1 - tailOfLevel (2 / 3)) = multiple * unit := by
  show ((round (Series.cauchyLaw.quantile 1 (1 - tailOfLevel (2 / 3)) / unit) : ℤ) : ℝ) * unit = _
  rw [quantile_two_thirds, h]

/-- At a level of two thirds the root is that of three. The critical value is at most the root, whether the
    quantile is 17 tenths, before the root, or 18 tenths, past it. -/
theorem criticalValue_le_root_tenths :
    (∃ t, criticalValue (gridLaw Int.floor (1 / 10)) 1 (2 / 3) = .ok t ∧ t ∈ Set.Icc (17 / 10) √3) ∧
    √3 < 18 / 10 ∧ ∃ t, criticalValue (gridLaw Int.ceil (1 / 10)) 1 (2 / 3) = .ok t ∧ t ≤ √3 := by
  have hlow : (17 / 10 : ℝ) < √3 := Real.lt_sqrt_of_sq_lt (by norm_num)
  have hhigh : √3 < 18 / 10 := (Real.sqrt_lt' (by norm_num)).mpr (by norm_num)
  have hroot : 0 < √3 := by positivity
  have hfloor : ⌊√3 / (1 / 10)⌋ = 17 := by
    refine Int.floor_eq_iff.mpr ⟨?_, ?_⟩ <;> push_cast <;> linarith
  have hceil : ⌈√3 / (1 / 10)⌉ = 18 := by
    refine Int.ceil_eq_iff.mpr ⟨?_, ?_⟩ <;> push_cast <;> linarith
  have hbelow : (gridLaw Int.floor (1 / 10)).quantile 1 (1 - tailOfLevel (2 / 3)) = 17 / 10 :=
    (quantile_gridLaw hfloor).trans (by norm_num)
  have habove : (gridLaw Int.ceil (1 / 10)).quantile 1 (1 - tailOfLevel (2 / 3)) = 18 / 10 :=
    (quantile_gridLaw hceil).trans (by norm_num)
  have hlevel : (0 : ℝ) < 2 / 3 ∧ (2 / 3 : ℝ) < 1 := by norm_num
  obtain ⟨hvalue, hbefore, _⟩ :=
    criticalValue_le_root hlevel le_rfl (convexTail_gridLaw _ _ 1) hroot upperTail_sqrt_three hbelow
  obtain ⟨hvalue', _, hpast⟩ :=
    criticalValue_le_root hlevel le_rfl (convexTail_gridLaw _ _ 1) hroot upperTail_sqrt_three habove
  exact ⟨⟨_, hvalue, (hbefore hlow.le).2⟩, hhigh, _, hvalue', hpast hhigh 3⟩

end Grid
end BatchMeans.StudentT
