import Scriptgen.Batch
import Scriptgen.Session
import Scriptgen.Proofs.Perl.JumpTargets
import Scriptgen.Proofs.Perl.CaughtReturns
import Scriptgen.Proofs.Mirrors.Lowering
import Scriptgen.Proofs.Ruby.Restoration
import Scriptgen.Proofs.Blanks.Printing
import Scriptgen.Proofs.Perl.Aliases
import Scriptgen.Proofs.Rotations
import Scriptgen.Proofs.Bytes
import Scriptgen.Proofs.Products
import Scriptgen.Proofs.Perl.Imports
import Scriptgen.Proofs.Perl.Annotations
import Scriptgen.Proofs.Observation
import Scriptgen.Proofs.Switch.FallThrough
import Scriptgen.Proofs.Perl.Protection
import Scriptgen.Proofs.Decisions
import Scriptgen.Proofs.Ruby.FileVariables
import Scriptgen.Proofs.Ruby.Balance
import Scriptgen.Proofs.Wrappers
import Scriptgen.Proofs.Perl.Hygiene
import Scriptgen.Proofs.Ruby.Objects
import Scriptgen.Proofs.HoistedVariables
import Scriptgen.Proofs.Perl.Delimiters
import Scriptgen.Proofs.Ruby.RegexBodies
import Scriptgen.Proofs.Ruby.LocalNames
import Scriptgen.Proofs.ElseChains
import Scriptgen.Proofs.Ruby.Remainders
import Scriptgen.Proofs.ClassMembers
import Scriptgen.Proofs.Diagnostics
import Scriptgen.Proofs.OptionForms
import Scriptgen.Proofs.Replacements
