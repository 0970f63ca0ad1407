import Lookahead.Derivation
import Lookahead.Description.WellFormed
import Lookahead.Main
import Lookahead.Proofs.Grammar.LeastFirst
import Lookahead.Proofs.Grammar.LeastFollow
import Lookahead.Proofs.Grammar.FirstOutcome
import Lookahead.Proofs.Grammar.FollowOutcome
import Lookahead.Proofs.Grammar.FirstExact
import Lookahead.Proofs.Grammar.FollowExact
import Lookahead.Proofs.SymbolTable
import Lookahead.Proofs.Validation.Declarations
import Lookahead.Proofs.Validation.Acceptance
import Lookahead.Proofs.Grammar.WordExact
import Lookahead.Proofs.Validated
import Lookahead.Proofs.Reading.Layout
import Lookahead.Proofs.Reading.Reader
import Lookahead.Proofs.Reading.Failure
import Lookahead.Proofs.Reading.Format
import Lookahead.Proofs.Reading.Written
import Lookahead.Proofs.Validation.Faithful
import Lookahead.Proofs.Validation.Canonical
import Lookahead.Proofs.Printed
import Lookahead.Proofs.Validation.Findings
import Lookahead.Proofs.Naming
import Lookahead.Proofs.Grammar.Correspondence
import Lookahead.Proofs.Totality
import Lookahead.Proofs.Rearranged
import Lookahead.Proofs.Grammar.Passes
import Lookahead.Proofs.CommandLine.Answers
import Lookahead.Proofs.CommandLine.Arguments
import Lookahead.Proofs.Runs
import Lookahead.Proofs.Registry.Sessions
import Lookahead.Proofs.Renamed
import Lookahead.Proofs.Grammar.Faults
import Lookahead.Proofs.Reading.Tilings
import Lookahead.Proofs.Reading.Places
import Lookahead.Proofs.Reading.Carets
import Lookahead.Proofs.Reading.Quotients
import Lookahead.Proofs.Reading.Viable
import Lookahead.Proofs.SetMap.Sequences
import Lookahead.Proofs.Report.Arrangement
import Lookahead.Proofs.Report.Decoding
import Lookahead.Proofs.Reading.Spans
import Lookahead.Proofs.Conventions
