import TokenNet.CommandLine.Answer

/-!
# The program

The program answers its command line in the working folder: it prints the document of the answer,
complains on the error stream and ends with the exit code.  An answer that was cut off ends as an
aborted process does, with the code 134.
-/

/-- Reads the file at a path, if it can be read. -/
def TokenNet.Path.readFile? (path : TokenNet.Path) : IO (Option String) := do
  try
    return some (← IO.FS.readFile path.text)
  catch _ =>
    return none

/-- Answers a command line. -/
def main (words : List String) : IO UInt32 := do
  let folder := TokenNet.Path.ofText .top (← IO.currentDir).toString
  let answer ← TokenNet.CommandLine.answer TokenNet.Path.readFile? folder words
  (← IO.getStdout).putStr answer.output
  for line in answer.complaints do
    (← IO.getStderr).putStrLn line
  return answer.code.getD 134
