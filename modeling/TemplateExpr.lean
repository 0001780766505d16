import TemplateExpr.Main
import TemplateExpr.Proofs.Evaluation
import TemplateExpr.Proofs.Grammar
import TemplateExpr.Proofs.Soundness
import TemplateExpr.Proofs.Completeness
import TemplateExpr.Proofs.NestingDepth
import TemplateExpr.Proofs.Injection
import TemplateExpr.Proofs.NestingLimit
import TemplateExpr.Proofs.ScanFailure
import TemplateExpr.Proofs.DecimalValue
import TemplateExpr.Proofs.DisplayRoundTrip
import TemplateExpr.Proofs.EnvironmentKeys
import TemplateExpr.Proofs.JsonRoundTrip
import TemplateExpr.Proofs.TreeRoundTrip
import TemplateExpr.Proofs.CodedText
import TemplateExpr.Proofs.EntityDecoding
import TemplateExpr.Proofs.Provenance
import TemplateExpr.Proofs.PercentDecoding
import TemplateExpr.Proofs.RenderStages
import TemplateExpr.Proofs.Concatenation
import TemplateExpr.Proofs.Distribution
import TemplateExpr.Proofs.Lookahead
import TemplateExpr.Proofs.Renaming
import TemplateExpr.Proofs.ViablePrefix
import TemplateExpr.Proofs.TokenLayout
import TemplateExpr.Proofs.StringItems
import TemplateExpr.Proofs.RenderErrors
import TemplateExpr.Proofs.BindingNames
import TemplateExpr.Proofs.ValueOrder
import TemplateExpr.Proofs.ConfigRoundTrip
import TemplateExpr.Proofs.RadixLiterals
import TemplateExpr.Proofs.NumberReadBack
import TemplateExpr.Proofs.PrimitiveForms
import TemplateExpr.Proofs.NumberLiterals
import TemplateExpr.Proofs.Indexing
import TemplateExpr.Proofs.ValueDocuments
import TemplateExpr.Proofs.ParserProgress
