import JsonPath.Main
import JsonPath.Proofs.Parser.Exactness
import JsonPath.Proofs.Evaluation.TypeSoundness
import JsonPath.Query.Equality
import JsonPath.Proofs.Number.Written
import JsonPath.Proofs.Token.Lexing
import JsonPath.Session
import JsonPath.Proofs.Canonical.Literals
import JsonPath.Proofs.Canonical.Tokens
import JsonPath.Proofs.Canonical.Proper
import JsonPath.Proofs.Canonical.Bare
import JsonPath.Proofs.Canonical.Reading
import JsonPath.Proofs.Canonical.Indifference
import JsonPath.Proofs.Canonical.Loss
import JsonPath.Proofs.Canonical.RoundTrip
import JsonPath.Proofs.Canonical.NormalizedPath
import JsonPath.Proofs.Evaluation.Slices
import JsonPath.Proofs.Evaluation.Found
import JsonPath.Proofs.Evaluation.Locations
import JsonPath.Proofs.Evaluation.Related
import JsonPath.Proofs.Cache.Recency
import JsonPath.Proofs.Extension.Rules
import JsonPath.Proofs.Evaluation.Simulation
import JsonPath.Proofs.Evaluation.Order
import JsonPath.Proofs.Evaluation.Draining
import JsonPath.Proofs.Evaluation.Eagerness
import JsonPath.Proofs.Evaluation.Anchored
import JsonPath.Proofs.Session.Ledger
import JsonPath.Proofs.Session.Eagerness
import JsonPath.Proofs.Session.Background
import JsonPath.Proofs.Session.History
import JsonPath.Proofs.Token.Lookahead
import JsonPath.Proofs.Token.Seam
import JsonPath.Proofs.Parser.Moved
import JsonPath.Proofs.Parser.Composition
import JsonPath.Proofs.Evaluation.Composition
import JsonPath.Proofs.Session.Composition
import JsonPath.Proofs.Token.Exchange
import JsonPath.Proofs.Token.Spacing
import JsonPath.Proofs.Parser.Mirror
import JsonPath.Proofs.Parser.Mirroring
import JsonPath.Proofs.Parser.Spacing
import JsonPath.Proofs.Parser.Failures
import JsonPath.Proofs.Parser.Connectives
import JsonPath.Proofs.Evaluation.Connectives
import JsonPath.Proofs.Session.Connectives
import JsonPath.Proofs.Evaluation.Reordered
import JsonPath.Proofs.Evaluation.Shuffled
import JsonPath.Proofs.Extension.Reordered
import JsonPath.Proofs.Session.Reordered
import JsonPath.Proofs.Canonical.Equality
import JsonPath.Proofs.Session.Equality
import JsonPath.Proofs.Token.Encodings
import JsonPath.Proofs.Evaluation.Distinct
import JsonPath.Proofs.Session.Distinct
import JsonPath.Proofs.Number.Exact
import JsonPath.Proofs.Value.DeepEquality
import JsonPath.Proofs.Value.Ordering
import JsonPath.Proofs.Cache.History
import JsonPath.Proofs.Extension.Patterns
import JsonPath.Proofs.Canonical.Legibility
import JsonPath.Proofs.Canonical.Unambiguity
import JsonPath.Proofs.Session.Identity
import JsonPath.Proofs.Number.Ascii
import JsonPath.Proofs.Parser.Enclosures
import JsonPath.Proofs.Parser.Numbers
import JsonPath.Proofs.Parser.Nesting
import JsonPath.Proofs.Parser.Groups
import JsonPath.Proofs.Cache.Inclusion
import JsonPath.Proofs.Regex.Units
import JsonPath.Proofs.Token.Spans
import JsonPath.Proofs.Text.Position
import JsonPath.Proofs.Parser.Origins
import JsonPath.Proofs.Evaluation.Rootless
import JsonPath.Proofs.Extension.Rootless
import JsonPath.Proofs.Session.Rootless
import JsonPath.Proofs.Parser.Tape
import JsonPath.Proofs.Parser.Trace
import JsonPath.Proofs.Parser.Progress
