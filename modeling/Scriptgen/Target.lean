import Scriptgen.Perl.Generate
import Scriptgen.Perl.Print
import Scriptgen.Ruby.Generate
import Scriptgen.Ruby.Print
/-!
# Target languages

The languages that code is generated for. `Target.generate` takes a program to code with the
warnings about it and the modules it needs.
-/

namespace Scriptgen

/-- A language that code is generated for. -/
inductive Target where
  | perl
  | ruby
deriving DecidableEq, Repr

/-- Generated code. -/
structure Generated where
  code : String
  warnings : List String
  /-- The modules that the code loads. -/
  dependencies : List String
deriving DecidableEq, Repr

namespace Target

def all : List Target := [.perl, .ruby]

def name : Target → String
  | .perl => "Perl"
  | .ruby => "Ruby"

def language : Target → String
  | .perl => "perl"
  | .ruby => "ruby"

def extension : Target → String
  | .perl => "pl"
  | .ruby => "rb"

def icon : Target → String
  | .perl => "🐪"
  | .ruby => "💎"

def mimeType : Target → String
  | .perl => "text/x-perl"
  | .ruby => "text/x-ruby"

/-- The version of the language that code is generated for. -/
def version : Target → String
  | .perl => "5.36"
  | .ruby => "3.2"

def indent : Target → String
  | .perl => "    "
  | .ruby => "  "

def installHint : Target → String
  | .perl =>
    "Install Perl 5.36+ from your package manager (apt install perl, brew install perl) or " ++
      "https://www.perl.org/get.html"
  | .ruby =>
    "Install Ruby 3.2+ from your package manager (apt install ruby, brew install ruby) or " ++
      "https://www.ruby-lang.org/en/downloads/"

/-- The target of a language, whose name may be in any case. -/
def ofLanguage? (language : String) : Option Target :=
  all.find? fun target => target.language == Text.lowerAscii language

/-- The target of a file ending, with or without its dot. -/
def ofExtension? (extension : String) : Option Target :=
  let bare := (Text.afterLead? ['.'] extension.toList).elim extension String.ofList
  all.find? fun target => target.extension == bare

/-- Generates code for the program that a JSON value is. -/
def generate (target : Target) (options : Options) (ast : Json) : Except RootError Generated := do
  let program ← programRoot ast
  let layout := Layout.ofOptions options target.indent
  match target with
  | .perl =>
    let (module, final) := Perl.generate options program
    return ⟨module.print layout, final.warnings.messages, final.imports.modules⟩
  | .ruby =>
    let (module, final) := Ruby.generate options program
    return ⟨module.print layout, final.warnings.messages, final.imports.modules⟩

end Target

end Scriptgen
