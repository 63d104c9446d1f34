/- The texts that the command line shows about itself. -/
namespace BatchMeans.Command

/-- The name of the program and its version. -/
def versionText : String := "benchci 0.1.0\n"

def helpText : String :=
  "Autocorrelation-aware confidence intervals for benchmark measurements\n\n" ++
  "Usage: benchci [OPTIONS] <COMMAND>\n\n" ++
  "Commands:\n" ++
  "  analyze    Analyze a measurement series: mean, optimal subsession size and CI\n" ++
  "  fit-error  Compare a fitted throughput model against per-round data\n" ++
  "  help       Print this message\n"

end BatchMeans.Command
