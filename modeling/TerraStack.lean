import TerraStack.CommandLine.Arguments
import TerraStack.CommandLine.Failure
import TerraStack.CommandLine.Flag
import TerraStack.CommandLine.Perform
import TerraStack.CommandLine.Request
import TerraStack.CommandLine.Session
import TerraStack.CommandLine.Usage
import TerraStack.Decimal.Binary64
import TerraStack.Decimal.Layout
import TerraStack.Decimal.Literal
import TerraStack.Decimal.Shortest
import TerraStack.FileSystem
import TerraStack.FileSystem.Change
import TerraStack.Hcl.Block
import TerraStack.Hcl.OfNode
import TerraStack.Hcl.Value
import TerraStack.Main
import TerraStack.OrderedMap
import TerraStack.Path
import TerraStack.Proofs.CommandLine.Consent
import TerraStack.Proofs.CommandLine.DryRun
import TerraStack.Proofs.CommandLine.Performing
import TerraStack.Proofs.CommandLine.Preflight
import TerraStack.Proofs.CommandLine.Steps
import TerraStack.Proofs.CommandLine.VarFile
import TerraStack.Proofs.FileSystem.Making
import TerraStack.Proofs.FileSystem.Walk
import TerraStack.Proofs.Hcl.BlockText
import TerraStack.Proofs.Hcl.Reading
import TerraStack.Proofs.Hcl.Spelling
import TerraStack.Proofs.Order.Extension
import TerraStack.Proofs.Order.Invariant
import TerraStack.Proofs.Order.Moves
import TerraStack.Proofs.Order.Needs
import TerraStack.Proofs.Order.Progress
import TerraStack.Proofs.Order.Reached
import TerraStack.Proofs.Order.Redeclaration
import TerraStack.Proofs.Order.Repeats
import TerraStack.Proofs.Order.Resolve
import TerraStack.Proofs.Order.Search
import TerraStack.Proofs.Path.Place
import TerraStack.Proofs.Stack.AddedVariables
import TerraStack.Proofs.Stack.BlockTexts
import TerraStack.Proofs.Stack.ForwardedVariables
import TerraStack.Proofs.Stack.Generations
import TerraStack.Proofs.Stack.Injection
import TerraStack.Proofs.Stack.LocalSources
import TerraStack.Proofs.Stack.ModuleBlocks
import TerraStack.Proofs.Stack.ModuleSection
import TerraStack.Proofs.Stack.Moving
import TerraStack.Proofs.Stack.OutputNames
import TerraStack.Proofs.Stack.PartialWrite
import TerraStack.Proofs.Stack.Placing
import TerraStack.Proofs.Stack.ProviderBlocks
import TerraStack.Proofs.Stack.ProviderSections
import TerraStack.Proofs.Stack.RootKeys
import TerraStack.Proofs.Stack.UnknownModules
import TerraStack.Proofs.Stack.ValuesFile
import TerraStack.Proofs.Stack.ValuesFrame
import TerraStack.Proofs.Terraform.Consent
import TerraStack.Proofs.Terraform.DeploySequence
import TerraStack.Proofs.Terraform.Deploying
import TerraStack.Proofs.Terraform.Deployment
import TerraStack.Proofs.Terraform.Destruction
import TerraStack.Proofs.Terraform.GuardSequence
import TerraStack.Proofs.Terraform.Listings
import TerraStack.Proofs.Terraform.RequestedWorkspace
import TerraStack.Proofs.Terraform.ScriptedResponse
import TerraStack.Proofs.Terraform.Starts
import TerraStack.Proofs.Terraform.Transcript
import TerraStack.Proofs.Terraform.WorkspaceListing
import TerraStack.Proofs.Text.Paragraphs
import TerraStack.Proofs.Tfvars.CodeBrackets
import TerraStack.Proofs.Tfvars.Depth
import TerraStack.Proofs.Tfvars.Handwritten
import TerraStack.Proofs.Tfvars.Idempotence
import TerraStack.Proofs.Tfvars.Literal
import TerraStack.Proofs.Tfvars.LostReturns
import TerraStack.Proofs.Tfvars.Merge
import TerraStack.Proofs.Tfvars.Recovery
import TerraStack.Proofs.Tfvars.Reread
import TerraStack.Proofs.Tfvars.Stored
import TerraStack.Shell.Arithmetic
import TerraStack.Shell.Builtin
import TerraStack.Shell.Condition
import TerraStack.Shell.Control
import TerraStack.Shell.Evaluate
import TerraStack.Shell.Expand
import TerraStack.Shell.Format
import TerraStack.Shell.Grammar
import TerraStack.Shell.Lookup
import TerraStack.Shell.Octets
import TerraStack.Shell.Pattern
import TerraStack.Shell.Process
import TerraStack.Shell.Redirection
import TerraStack.Shell.Regex
import TerraStack.Shell.Signal
import TerraStack.Shell.StandIn
import TerraStack.Shell.Syntax
import TerraStack.Shell.Utility.All
import TerraStack.Shell.Utility.Batch
import TerraStack.Shell.Utility.Edit
import TerraStack.Shell.Utility.File
import TerraStack.Shell.Utility.Options
import TerraStack.Shell.Utility.Search
import TerraStack.Shell.Utility.Text
import TerraStack.Shell.Utility.Value
import TerraStack.Shell.Word
import TerraStack.Stack
import TerraStack.Stack.Artifacts
import TerraStack.Stack.Blocks
import TerraStack.Stack.Convention
import TerraStack.Stack.Declaration
import TerraStack.Stack.Error
import TerraStack.Stack.Module
import TerraStack.Stack.Order
import TerraStack.Stack.Settings
import TerraStack.Stack.Source
import TerraStack.Stack.WellKnown
import TerraStack.Stack.Writer
import TerraStack.Terraform.Command
import TerraStack.Terraform.Confirmation
import TerraStack.Terraform.Error
import TerraStack.Terraform.Launcher
import TerraStack.Terraform.Lifecycle
import TerraStack.Terraform.Procedure
import TerraStack.Terraform.Program
import TerraStack.Terraform.Rehearsal
import TerraStack.Terraform.Script
import TerraStack.Terraform.Workspace
import TerraStack.Text.Affix
import TerraStack.Text.Blank
import TerraStack.Text.Bytes
import TerraStack.Text.Json
import TerraStack.Text.Lines
import TerraStack.Tfvars.Bracket
import TerraStack.Tfvars.Entries
import TerraStack.Tfvars.Merge
import TerraStack.Yaml.BlockScalar
import TerraStack.Yaml.Character
import TerraStack.Yaml.CoreSchema
import TerraStack.Yaml.Document
import TerraStack.Yaml.Error
import TerraStack.Yaml.Event
import TerraStack.Yaml.Folding
import TerraStack.Yaml.Node
import TerraStack.Yaml.PlainScalar
import TerraStack.Yaml.Property
import TerraStack.Yaml.QuotedScalar
import TerraStack.Yaml.Tag
import TerraStack.Yaml.Token
import TerraStack.Yaml.TokenStream
