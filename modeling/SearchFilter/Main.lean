import SearchFilter.CommandLine

/-!
# The program

Hands the arguments and the environment to `SearchFilter.run`, and prints what comes of it.
-/

open SearchFilter

def main (args : List String) : IO UInt32 := do
  let values ← Setting.all.mapM fun setting => do
    return (setting.envName, ← IO.getEnv setting.envName)
  let result := run args fun name => (values.find? (·.1 == name)).bind (·.2)
  IO.print result.stdout
  IO.eprint result.stderr
  return UInt32.ofNat result.exitCode
