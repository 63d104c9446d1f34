import BatchMeans.Proofs.Traps.Analysis
import BatchMeans.Proofs.Traps.Fit
import BatchMeans.Proofs.Traps.Reading

/- No operation of the library meets a trap.

   `Untrapped` lists the operations: those on a series, those on rounds, and the
   readers. Each takes any arguments of its types, also ones that it refuses:
   no readings at all, readings that are infinite or undefined, block sizes, lags
   and degrees of freedom of any size, zero included, rounds that no one has
   checked, and any bytes. Operations that take none of the guarded steps, such as
   the check of the settings or the summary of a table, are not listed. -/
namespace BatchMeans
open Series Throughput

/-- Run with its steps guarded, each operation comes to no trap and gives what it gives without
    guards, whatever the distribution answers. -/
structure Untrapped (law : TailLaw Float) : Prop where
  mean : ∀ (xs : List Float) (method : MeanMethod),
    Computes (Guarded.mean xs method) (Series.mean xs method)
  blockMeans : ∀ (xs : List Float) (q : Nat) (method : MeanMethod),
    Computes (Guarded.blockMeans xs q method) (Series.blockMeans xs q method)
  blockVariance : ∀ (xs : List Float) (q : Nat) (centre : Float) (method : MeanMethod),
    Computes (Guarded.blockVariance xs q centre method) (Series.blockVariance xs q centre method)
  blockAutocorrelation : ∀ (xs : List Float) (q : Nat) (centre : Float) (method : MeanMethod),
    Computes (Guarded.blockAutocorrelation xs q centre method)
      (Series.blockAutocorrelation xs q centre method)
  lagAutocorrelation : ∀ (xs : List Float) (lag : Nat) (centre : Float),
    Computes (Guarded.lagAutocorrelation xs lag centre) (Series.lagAutocorrelation xs lag centre)
  blockSize? : ∀ (xs : List Float) (method : MeanMethod) (limit : Float),
    Computes (Guarded.blockSize? xs method limit) (Series.blockSize? xs method limit)
  criticalValue : ∀ (df : Nat) (level : Float),
    Computes (Guarded.criticalValue law df level)
      (StudentT.criticalValue (StudentT.seriesLaw law) df level)
  confidenceInterval : ∀ (xs : List Float) (q : Nat) (level : Float) (method : MeanMethod)
      (anchor : Anchor),
    Computes (Guarded.confidenceInterval law xs q level method anchor)
      (Series.confidenceInterval (StudentT.seriesLaw law) xs q level method anchor)
  requiredSize? : ∀ (xs : List Float) (width : Float) (method : MeanMethod) (level limit : Float),
    Computes (Guarded.requiredSize? law xs width method level limit)
      (Series.requiredSize? (StudentT.seriesLaw law) xs width method level limit)
  analyze : ∀ (xs : List Float) (s : Settings Float),
    Computes (Guarded.analyze law xs s) (Series.analyze (StudentT.seriesLaw law) xs s)
  leastSquares : ∀ xs ys : List Float,
    Computes (Guarded.leastSquares xs ys) (Line.leastSquares xs ys)
  fit? : ∀ (rs : List (Round Float)) (o : FitOptions Float),
    Computes (Guarded.fit? rs o) (Round.fit? rs o)
  score : ∀ (rs : List (Round Float)) (model : RateModel Float),
    Computes (Guarded.score rs model) (Round.score rs model)
  readSeries : ∀ (bytes : List UInt8) (field : Nat) (skip : Option Nat),
    Computes (Guarded.readSeries bytes field skip) (Table.readSeries bytes field skip)
  readRounds : ∀ bytes : List UInt8,
    Computes (Guarded.readRounds bytes) (Table.readRounds bytes)

/-- **No operation of the library meets a trap.** -/
theorem library_untrapped (law : TailLaw Float) : Untrapped law where
  mean := Computes.mean
  blockMeans := Computes.blockMeans
  blockVariance := Computes.blockVariance
  blockAutocorrelation := Computes.blockAutocorrelation
  lagAutocorrelation := Computes.lagAutocorrelation
  blockSize? := Computes.blockSize?
  criticalValue := Computes.criticalValue law
  confidenceInterval := Computes.confidenceInterval law
  requiredSize? := Computes.requiredSize? law
  analyze := Computes.analyze law
  leastSquares := Computes.leastSquares
  fit? := Computes.fit?
  score := Computes.score
  readSeries := Computes.readSeries
  readRounds := Computes.readRounds

/-- Blocks of no readings, the largest lag, and the largest number of degrees of freedom in the
    distribution that is used. -/
theorem library_untrapped_extremes :
    (∀ t, Guarded.blockMeans [1.0, (0.0 / 0.0 : Float)] 0 .harmonic ≠ .error (.trapped t)) ∧
    (∀ t, Guarded.lagAutocorrelation [1.0, (2.0 : Float)] 18446744073709551615 1.5 ≠
      .error (.trapped t)) ∧
    Computes (Guarded.criticalValue ⟨StudentT.betaTail, StudentT.density, StudentT.quantile⟩
        18446744073709551615 0.95)
      (StudentT.criticalValue StudentT.doubleLaw 18446744073709551615 0.95) := by
  have h := library_untrapped ⟨StudentT.betaTail, StudentT.density, StudentT.quantile⟩
  refine ⟨?_, ?_, ?_⟩
  · exact (h.blockMeans _ 0 .harmonic).not_trapped
  · exact (h.lagAutocorrelation _ 18446744073709551615 1.5).not_trapped
  · rw [StudentT.doubleLaw_eq]
    exact h.criticalValue 18446744073709551615 0.95

end BatchMeans
