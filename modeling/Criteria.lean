import Criteria.Stored.Document
import Criteria.Session
import Criteria.Proofs.Outcome
import Criteria.Proofs.Reading
import Criteria.Proofs.Grammar
import Criteria.Proofs.Gaps
import Criteria.Proofs.Strictness
import Criteria.Proofs.Phrases
import Criteria.Proofs.Lexemes
import Criteria.Proofs.Rendering
import Criteria.Proofs.Numerals
import Criteria.Proofs.Quotes
import Criteria.Proofs.JsonTexts
import Criteria.Proofs.Storage
import Criteria.Proofs.Invariants
import Criteria.Proofs.Sessions
import Criteria.Proofs.Defects
import Criteria.Proofs.Storable
import Criteria.Proofs.Embedding
import Criteria.Proofs.Combinations
import Criteria.Proofs.Layouts
import Criteria.Proofs.Arrangements
import Criteria.Proofs.RuleBooks
import Criteria.Proofs.StoredEvaluation
import Criteria.Proofs.Verdicts
import Criteria.Proofs.Comparisons
import Criteria.Proofs.NumericTexts
import Criteria.Proofs.Scans
import Criteria.Proofs.StrayTexts
import Criteria.Proofs.WrittenConditions
import Criteria.Proofs.Refusals
import Criteria.Proofs.Groups
import Criteria.Proofs.Sequences
import Criteria.Proofs.Limits
import Criteria.Proofs.Prefixes
import Criteria.Proofs.LeftJoins
import Criteria.Proofs.JoinedVerdicts
import Criteria.Proofs.Integers
import Criteria.Proofs.QuotedTexts
import Criteria.Proofs.Thresholds
import Criteria.Proofs.CompiledConditions
import Criteria.Proofs.StoredNodes
import Criteria.Proofs.SpacedObjects
import Criteria.Proofs.WrittenSettings
