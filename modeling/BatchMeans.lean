import BatchMeans.Analysis.Analyze
import BatchMeans.Analysis.SettingsFile
import BatchMeans.Command.Run
import BatchMeans.Command.Texts
import BatchMeans.Decimal.Notation
import BatchMeans.Decimal.Reading
import BatchMeans.Main
import BatchMeans.Proofs.Analysis.Anchors
import BatchMeans.Proofs.Analysis.CentreShift
import BatchMeans.Proofs.Analysis.Coherence
import BatchMeans.Proofs.Analysis.Decision
import BatchMeans.Proofs.Analysis.LeastSampleSize
import BatchMeans.Proofs.Analysis.LevelOrder
import BatchMeans.Proofs.Analysis.Refusal
import BatchMeans.Proofs.Analysis.UnitChange
import BatchMeans.Proofs.Analysis.ZeroDivisor
import BatchMeans.Proofs.Arith.DoubleSigns
import BatchMeans.Proofs.Arith.DoubleSpecial
import BatchMeans.Proofs.Arith.DoubleValue
import BatchMeans.Proofs.Arith.Exact
import BatchMeans.Proofs.Arith.Ordered
import BatchMeans.Proofs.Arith.RoundedOperations
import BatchMeans.Proofs.Arith.Rounding
import BatchMeans.Proofs.Checked
import BatchMeans.Proofs.Command.Ending
import BatchMeans.Proofs.Command.SettingsLayers
import BatchMeans.Proofs.Series.Acceptance
import BatchMeans.Proofs.Series.CompleteBlocks
import BatchMeans.Proofs.Series.ConstantSeries
import BatchMeans.Proofs.Series.CorrelationBound
import BatchMeans.Proofs.Series.Cutting
import BatchMeans.Proofs.Series.Grouping
import BatchMeans.Proofs.Series.IntervalPoint
import BatchMeans.Proofs.Series.Lags
import BatchMeans.Proofs.Series.LeastBlockSize
import BatchMeans.Proofs.Series.MeanOrder
import BatchMeans.Proofs.Series.Moments
import BatchMeans.Proofs.Series.UnitChange
import BatchMeans.Proofs.Series.ZeroDivisor
import BatchMeans.Proofs.StudentT.NewtonSteps
import BatchMeans.Proofs.StudentT.Truncation
import BatchMeans.Proofs.Table.Lines
import BatchMeans.Proofs.Table.NamedColumns
import BatchMeans.Proofs.Table.Record
import BatchMeans.Proofs.Table.RoundRows
import BatchMeans.Proofs.Table.SeriesColumn
import BatchMeans.Proofs.Table.SkippedLines
import BatchMeans.Proofs.Throughput.Acceptance
import BatchMeans.Proofs.Throughput.BlockFit
import BatchMeans.Proofs.Throughput.BlockResidual
import BatchMeans.Proofs.Throughput.ExactModel
import BatchMeans.Proofs.Throughput.FitOutcome
import BatchMeans.Proofs.Throughput.LeastSquares
import BatchMeans.Proofs.Throughput.NormalEquations
import BatchMeans.Proofs.Throughput.RateInterval
import BatchMeans.Proofs.Throughput.ScoreBatches
import BatchMeans.Proofs.Throughput.ScoreBounds
import BatchMeans.Proofs.Throughput.SingleRate
import BatchMeans.Proofs.Throughput.UnitChange
import BatchMeans.Proofs.Traps.Analysis
import BatchMeans.Proofs.Traps.Blocks
import BatchMeans.Proofs.Traps.CriticalValue
import BatchMeans.Proofs.Traps.Fit
import BatchMeans.Proofs.Traps.Library
import BatchMeans.Proofs.Traps.Reading
import BatchMeans.Report.AnalysisReport
import BatchMeans.Report.ScoreReport
import BatchMeans.StudentT.Double
import BatchMeans.Table.RoundRows
import BatchMeans.Table.SeriesColumn
import BatchMeans.Table.SummaryRow
import BatchMeans.Throughput.Fit
import BatchMeans.Throughput.Score
import BatchMeans.Proofs.Command.Reports
import BatchMeans.Proofs.Table.SummaryRow
