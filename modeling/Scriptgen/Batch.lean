import Scriptgen.Validation
/-!
# Batches

Several programs at once, each for its own language and with its own options.
-/

namespace Scriptgen

/-- Why no code was generated. -/
inductive GenerationError where
  /-- There is no target of this name. -/
  | noTarget (language : String)
  | root (error : RootError)
deriving DecidableEq, Repr

def GenerationError.message : GenerationError → String
  | .noTarget language => "no plugin for language '" ++ language ++ "'"
  | .root error => error.message

/-- A program to generate code for. -/
structure Job where
  language : String
  ast : Json
  options : Options
  /-- Whether to validate the generated code. -/
  validate : Bool

/-- What became of a job. -/
structure JobResult where
  language : String
  generation : Except GenerationError Generated
  validation : Option Validation

/-- Generates code for a program in the language of a name. -/
def generateFor (language : String) (options : Options) (ast : Json) :
    Except GenerationError Generated :=
  match Target.ofLanguage? language with
  | none => .error (.noTarget language)
  | some target => (target.generate options ast).mapError .root

/-- Runs a job. Only generated code is validated, within the time that the job's options allow. -/
def Job.run (tool : Option Tool) (job : Job) : JobResult :=
  let generation := generateFor job.language job.options job.ast
  let validation :=
    match generation, Target.ofLanguage? job.language with
    | .ok generated, some target =>
      if job.validate then some (target.validate tool job.options.validationTimeout generated.code)
      else none
    | _, _ => none
  ⟨job.language, generation, validation⟩

def runBatch (tool : Option Tool) (jobs : List Job) : List JobResult := jobs.map (·.run tool)

end Scriptgen
