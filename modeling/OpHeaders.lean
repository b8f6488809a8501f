import OpHeaders.Main
import OpHeaders.Proofs.Text.Block
import OpHeaders.Proofs.Text.Lines
import OpHeaders.Proofs.Text.Word
import OpHeaders.Proofs.Header.Directive
import OpHeaders.Proofs.Header.Documentation
import OpHeaders.Proofs.Header.Registration
import OpHeaders.Proofs.Header.Text
import OpHeaders.Proofs.Header.Closing
import OpHeaders.Proofs.Yaml.Keys
import OpHeaders.Proofs.Schema.Acceptance
import OpHeaders.Proofs.Schema.Names
import OpHeaders.Proofs.Files.Location
import OpHeaders.Proofs.Files.Writing
import OpHeaders.Proofs.Files.Rewriting
import OpHeaders.Proofs.Config.Slot
import OpHeaders.Proofs.Config.Loading
import OpHeaders.Proofs.Compile.Effect
import OpHeaders.Proofs.Compile.Isolation
import OpHeaders.Proofs.Header.Layout
import OpHeaders.Proofs.Files.Plain
import OpHeaders.Proofs.Files.Reading
import OpHeaders.Proofs.Files.Forecast
import OpHeaders.Proofs.Files.Independence
import OpHeaders.Proofs.Compile.Order
import OpHeaders.Proofs.Files.Keeping
import OpHeaders.Proofs.Files.Directory
import OpHeaders.Proofs.Files.Staging
import OpHeaders.Proofs.Files.Atomicity
import OpHeaders.Proofs.Compile.Sources
import OpHeaders.Proofs.Compile.Verdict
import OpHeaders.Proofs.Compile.Rehearsal
import OpHeaders.Proofs.CommandLine.Generate
import OpHeaders.Proofs.Compile.Repetition
import OpHeaders.Proofs.Compile.Components
import OpHeaders.Proofs.Compile.Summary
import OpHeaders.Proofs.Schema.Rewriting
import OpHeaders.Proofs.Schema.Offences
import OpHeaders.Proofs.Header.Alignment
import OpHeaders.Proofs.Header.Margin
import OpHeaders.Proofs.Text.Padding
import OpHeaders.Proofs.Header.Padding
import OpHeaders.Proofs.Header.Gaps
import OpHeaders.Proofs.Header.Nesting
import OpHeaders.Proofs.Text.Normal
import OpHeaders.Proofs.Text.UpperCase
import OpHeaders.Proofs.Header.Guard
