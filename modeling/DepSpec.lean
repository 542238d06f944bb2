import DepSpec.CommandLine.Classify
import DepSpec.CommandLine.Daemon
import DepSpec.Main
import DepSpec.Range.Admits
import DepSpec.Range.Text
import DepSpec.Specifier.WellFormed
import DepSpec.Version.Grammar
import DepSpec.Proofs.Service.Framing
import DepSpec.Proofs.Service.Runs
import DepSpec.Proofs.Service.Answering
import DepSpec.Proofs.Service.FatalStop
import DepSpec.Proofs.Text.Pieces
import DepSpec.Proofs.Version.Characters
import DepSpec.Proofs.Version.WrittenForm
import DepSpec.Proofs.Range.LooseVersions
import DepSpec.Proofs.Range.Vocabulary
import DepSpec.Proofs.Range.WrittenForm
import DepSpec.Proofs.Specifier.NpmSafety
import DepSpec.Proofs.Specifier.Attribution
import DepSpec.Proofs.Specifier.ExactVersions
import DepSpec.Proofs.Json.ReadBack
import DepSpec.Proofs.Specifier.WireForm
import DepSpec.Proofs.Service.ResponseLines
import DepSpec.Service.Conversation
import DepSpec.Proofs.Service.Retention
import DepSpec.Proofs.Service.AskedLines
import DepSpec.Proofs.Service.InStep
import DepSpec.Proofs.Service.Lockstep
import DepSpec.Proofs.Service.LoopbackAsks
import DepSpec.Service.Sharing
import DepSpec.Proofs.Service.Interruptions
import DepSpec.Proofs.Service.SharedAnswers
import DepSpec.Proofs.Service.LoopbackCaches
import DepSpec.Proofs.Version.StrictForm
import DepSpec.Proofs.Resolution.Answers
import DepSpec.Proofs.Text.LetterCase
import DepSpec.Proofs.Results
import DepSpec.Proofs.Specifier.LocalPaths
import DepSpec.Proofs.Specifier.WellFormed
import DepSpec.Proofs.Resolution.PackageArguments
import DepSpec.Proofs.Specifier.Aliases
import DepSpec.Proofs.Repository.Paths
import DepSpec.Proofs.Repository.Addresses
import DepSpec.Proofs.Text.ByteOrder
import DepSpec.Proofs.Version.RecordOrder
import DepSpec.Proofs.Service.FirstReason
import DepSpec.Proofs.Service.SocketOwnership
import DepSpec.Proofs.Service.StreamedTexts
import DepSpec.Proofs.CommandLine.SameLine
import DepSpec.Proofs.Range.Disjunction
import DepSpec.Proofs.Version.BuildText
import DepSpec.Proofs.Specifier.BuildMetadata
import DepSpec.Proofs.Version.PartialForm
import DepSpec.Proofs.Range.OneGroup
import DepSpec.Proofs.Range.Bounds
import DepSpec.Proofs.Range.Compatible
import DepSpec.Proofs.Range.Comparators
import DepSpec.Proofs.Version.SemanticVersions
import DepSpec.Proofs.Version.RecordText
import DepSpec.Proofs.Resolution.Shortcuts
import DepSpec.Proofs.Range.UnreadWords
import DepSpec.Proofs.Resolution.Spellings
import DepSpec.Proofs.Specifier.SchemeCase
import DepSpec.Proofs.Resolution.CloneUrls
import DepSpec.Proofs.Resolution.ArgumentPieces
import DepSpec.Proofs.Range.Sending
import DepSpec.Proofs.Range.SpacedOperators
import DepSpec.Proofs.Service.LineSearch
