import TransformDirective.Compile.Transform
import TransformDirective.Proofs.Compile.BlockOrder
import TransformDirective.Proofs.Compile.Disabling
import TransformDirective.Proofs.Compile.Effect
import TransformDirective.Proofs.Compile.FieldByField
import TransformDirective.Proofs.Compile.Reporting
import TransformDirective.Proofs.Compile.Reseeding
import TransformDirective.Proofs.Receiver.Idempotence
import TransformDirective.Proofs.Receiver.LocalRule
import TransformDirective.Proofs.Receiver.Verdict
import TransformDirective.Proofs.Resolver.Operations
import TransformDirective.Proofs.Resolver.RoundTrip
import TransformDirective.Proofs.Scenario.Soundness
import TransformDirective.Proofs.Scenario.StepText
import TransformDirective.Proofs.Schema.Concatenation
import TransformDirective.Proofs.Schema.Dedenting
import TransformDirective.Proofs.Schema.NodePlaces
import TransformDirective.Proofs.Schema.NumberText
import TransformDirective.Proofs.Schema.QuotedText
import TransformDirective.Proofs.Schema.Respacing
import TransformDirective.Proofs.Schema.Reuse
import TransformDirective.Proofs.Schema.Tiling
import TransformDirective.Proofs.Schema.TypeText
import TransformDirective.Proofs.Template.Unambiguity
import TransformDirective.Proofs.Usage.Enclosure
import TransformDirective.Resolver.Dump
import TransformDirective.Scenario.Run
import TransformDirective.Schema.Reading
