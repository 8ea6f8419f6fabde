import DeclarativeBuild.Text.Pieces
import DeclarativeBuild.Text.Blank
import DeclarativeBuild.Text.Uppercase
import DeclarativeBuild.Text.Quoted
import DeclarativeBuild.Disk.Change
import DeclarativeBuild.Markup.Reader
import DeclarativeBuild.Language
import DeclarativeBuild.Compiler.ShortName
import DeclarativeBuild.Properties
import DeclarativeBuild.World
import DeclarativeBuild.Preset
import DeclarativeBuild.Fileset
import DeclarativeBuild.Task.Reader
import DeclarativeBuild.Run.Stages
import DeclarativeBuild.Run.Host
import DeclarativeBuild.Run.PlanText
import DeclarativeBuild.Settings
import DeclarativeBuild.Project.Load
import DeclarativeBuild.ObjectTags
import DeclarativeBuild.Shell.Parser
import DeclarativeBuild.Shell.Evaluate
import DeclarativeBuild.Run.Machine
import DeclarativeBuild.Project.Build
import DeclarativeBuild.CommandLine.Run
import DeclarativeBuild.Main
import DeclarativeBuild.Proofs.Preset.Lineage
import DeclarativeBuild.Proofs.Preset.Memo
import DeclarativeBuild.Proofs.Run.Calls
import DeclarativeBuild.Proofs.Run.Stages
import DeclarativeBuild.Proofs.Run.Rehearsal
import DeclarativeBuild.Proofs.Run.Interleaving
import DeclarativeBuild.Proofs.Run.Planned
import DeclarativeBuild.Proofs.Run.Answers
import DeclarativeBuild.Proofs.Run.Parallel
import DeclarativeBuild.Proofs.Run.Parameters
import DeclarativeBuild.Proofs.Steps
import DeclarativeBuild.Proofs.Results
import DeclarativeBuild.Proofs.Properties.Growth
import DeclarativeBuild.Proofs.Text.Splitting
import DeclarativeBuild.Proofs.Text.CaseMapping
import DeclarativeBuild.Proofs.Disk.Linkless
import DeclarativeBuild.Proofs.Disk.Following
import DeclarativeBuild.Proofs.Disk.Moving
import DeclarativeBuild.Proofs.Import.Files
import DeclarativeBuild.Proofs.Import.Depth
import DeclarativeBuild.Proofs.Import.Recurrence
import DeclarativeBuild.Proofs.Import.Discovery
import DeclarativeBuild.Proofs.Task.Collisions
import DeclarativeBuild.Proofs.Compiler.Delivery
import DeclarativeBuild.Proofs.Disk.Parents
import DeclarativeBuild.Proofs.Import.Moments
import DeclarativeBuild.Proofs.Import.Sections
import DeclarativeBuild.Proofs.Import.Precedence
import DeclarativeBuild.Proofs.Disk.Arrival
import DeclarativeBuild.Proofs.Import.Ancestors
import DeclarativeBuild.Proofs.Task.Operands
import DeclarativeBuild.Proofs.Task.Expansions
import DeclarativeBuild.Proofs.Run.Linking
import DeclarativeBuild.Proofs.Properties.References
import DeclarativeBuild.Proofs.Tables
import DeclarativeBuild.Proofs.Import.Definitions
import DeclarativeBuild.Proofs.Json.Tokens
import DeclarativeBuild.Proofs.Json.Documents
import DeclarativeBuild.Proofs.Run.Echoes
import DeclarativeBuild.Proofs.CommandLine.PlanOutput
import DeclarativeBuild.Proofs.Markup.Trees
import DeclarativeBuild.Proofs.Markup.Scanning
import DeclarativeBuild.Proofs.Markup.Items
import DeclarativeBuild.Proofs.Markup.Prolog
import DeclarativeBuild.Proofs.Markup.Texts
import DeclarativeBuild.Proofs.Markup.Content
import DeclarativeBuild.Proofs.Markup.Comments
import DeclarativeBuild.Proofs.Properties.Nodes
import DeclarativeBuild.Proofs.Properties.Nesting
import DeclarativeBuild.Proofs.Compiler.ShortNames
import DeclarativeBuild.Proofs.Compiler.DrivePaths
import DeclarativeBuild.Proofs.Compiler.DriveLines
import DeclarativeBuild.Proofs.Text.ByteOrder
import DeclarativeBuild.Proofs.Run.DisplayedLines
import DeclarativeBuild.Proofs.Disk.Components
import DeclarativeBuild.Proofs.Compiler.LinkLines
import DeclarativeBuild.Proofs.Disk.Listing
import DeclarativeBuild.Proofs.Markup.AttributeValues
import DeclarativeBuild.Proofs.Markup.ObjectTags
import DeclarativeBuild.Proofs.Disk.Joining
import DeclarativeBuild.Proofs.Wildcard.Search
import DeclarativeBuild.Proofs.Wildcard.Matching
import DeclarativeBuild.Proofs.Wildcard.Order
import DeclarativeBuild.Proofs.Wildcard.Sight
import DeclarativeBuild.Proofs.Wildcard.Reading
import DeclarativeBuild.Proofs.Wildcard.Expansion
import DeclarativeBuild.Proofs.Wildcard.Obstacles
import DeclarativeBuild.Proofs.Wildcard.Moved
import DeclarativeBuild.Proofs.Wildcard.Declared
import DeclarativeBuild.Proofs.Wildcard.Nested
import DeclarativeBuild.Proofs.Settings.Precedence
import DeclarativeBuild.Proofs.Properties.Arguments
import DeclarativeBuild.Proofs.Run.Alone
import DeclarativeBuild.Proofs.Run.Refusals
import DeclarativeBuild.Proofs.Disk.Places
import DeclarativeBuild.Proofs.Task.Written
import DeclarativeBuild.Proofs.Import.Mount
import DeclarativeBuild.Proofs.Task.Objects
import DeclarativeBuild.Proofs.Session.Changes
