import JavaLiteral.Main
import JavaLiteral.Proofs.StringReading
import JavaLiteral.Proofs.IntegerReading
import JavaLiteral.Proofs.SingleReading
import JavaLiteral.Proofs.MarkupCollisions
import JavaLiteral.Proofs.RequestLiteral
import JavaLiteral.Proofs.ShortestDigits
import JavaLiteral.Proofs.BatchOutcome
import JavaLiteral.Proofs.IntegerRequest
import JavaLiteral.Proofs.MarkupLayers
import JavaLiteral.Proofs.BooleanReading
import JavaLiteral.Proofs.CharReading
import JavaLiteral.Proofs.RequestGrammar
import JavaLiteral.Proofs.Questions
import JavaLiteral.Proofs.ReadableLiterals
import JavaLiteral.Proofs.RoundedDigits
import JavaLiteral.Proofs.FloatForms
import JavaLiteral.Proofs.LinePartition
import JavaLiteral.Proofs.Occurrences
import JavaLiteral.Proofs.CharForms
import JavaLiteral.Proofs.LegalIdentifiers
import JavaLiteral.Proofs.MarkupStyles
import JavaLiteral.Proofs.SingleText
import JavaLiteral.Proofs.Narrowing
import JavaLiteral.Proofs.HexadecimalDigits
