import CmdletForge.Text.Basic
import CmdletForge.Text.Utf8
import CmdletForge.Text.Quoted
import CmdletForge.Json.Typed
import CmdletForge.Yaml.Block
import CmdletForge.Yaml.QuotedScalar
import CmdletForge.Yaml.Event
import CmdletForge.Yaml.Typed
import CmdletForge.Files.Path
import CmdletForge.Files.Tree
import CmdletForge.Service.Document
import CmdletForge.Xml.Entity
import CmdletForge.Xml.Markup
import CmdletForge.Display.CustomDocument
import CmdletForge.Display.Block
import CmdletForge.Xml.Attribute
import CmdletForge.Xml.Tree
import CmdletForge.Display.Manifest
import CmdletForge.Display.Collection
import CmdletForge.Display.Load
import CmdletForge.Display.Operation
import CmdletForge.Invocation.Confirmation
import CmdletForge.Invocation.Member
import CmdletForge.Invocation.Paging
import CmdletForge.Source.Code
import CmdletForge.Source.Writer
import CmdletForge.Cmdlet.Binding
import CmdletForge.Cmdlet.Generate
import CmdletForge.Format.Generate
import CmdletForge.Command.Arguments
import CmdletForge.Command.Run
import CmdletForge.Files.Changes
import CmdletForge.Main
import CmdletForge.Proofs.Display.Grouping
import CmdletForge.Proofs.Paging.Rounds
import CmdletForge.Proofs.Paging.Pages
import CmdletForge.Proofs.Paging.Delivery
import CmdletForge.Proofs.Paging.Requests
import CmdletForge.Proofs.Paging.Resuming
import CmdletForge.Proofs.Paging.Cursor
import CmdletForge.Proofs.Display.Steps
import CmdletForge.Proofs.Display.Readings
import CmdletForge.Proofs.Display.Loading
import CmdletForge.Proofs.Display.Eligibility
import CmdletForge.Proofs.Xml.Blocks
import CmdletForge.Proofs.Text.Slices
import CmdletForge.Proofs.Display.Capturing
import CmdletForge.Proofs.Display.CapturedViews
import CmdletForge.Proofs.Xml.Contents
import CmdletForge.Proofs.Format.Document
import CmdletForge.Proofs.Format.Views
import CmdletForge.Proofs.Format.Encoding
import CmdletForge.Proofs.Format.Masking
import CmdletForge.Proofs.Cmdlet.Emissions
import CmdletForge.Proofs.Source.Literals
import CmdletForge.Proofs.Cmdlet.Validation
import CmdletForge.Proofs.Cmdlet.Composition
import CmdletForge.Proofs.Source.Names
import CmdletForge.Proofs.Source.Codes
import CmdletForge.Proofs.Cmdlet.Members
import CmdletForge.Proofs.Cmdlet.Declarations
import CmdletForge.Proofs.Cmdlet.References
import CmdletForge.Proofs.Cmdlet.Places
import CmdletForge.Proofs.Cmdlet.Parameters
import CmdletForge.Proofs.Display.Overlays
import CmdletForge.Proofs.Files.Entries
import CmdletForge.Proofs.Files.Walks
import CmdletForge.Proofs.Files.Writes
import CmdletForge.Proofs.Files.Joins
import CmdletForge.Proofs.Cmdlet.Outputs
import CmdletForge.Proofs.Cmdlet.OutputFiles
import CmdletForge.Proofs.Source.Regular
import CmdletForge.Proofs.Source.Quotations
import CmdletForge.Proofs.Cmdlet.Quotations
import CmdletForge.Proofs.Confirmation.Summaries
import CmdletForge.Proofs.Confirmation.Disclosures
import CmdletForge.Proofs.Text.Trimming
import CmdletForge.Proofs.Xml.Pieces
import CmdletForge.Proofs.Xml.Elements
import CmdletForge.Proofs.Xml.Insides
import CmdletForge.Proofs.Display.CaptureSteps
import CmdletForge.Proofs.Display.ViewSpans
import CmdletForge.Proofs.Display.Parsing
import CmdletForge.Proofs.Display.TypeNames
import CmdletForge.Proofs.Lists.Positions
import CmdletForge.Proofs.Source.Indentation
import CmdletForge.Proofs.Source.Arrays
import CmdletForge.Proofs.Cmdlet.Confirmations
import CmdletForge.Proofs.Xml.Faults
import CmdletForge.Proofs.Display.ViewRanges
import CmdletForge.Proofs.Display.ByteOrderMarks
import CmdletForge.Proofs.Files.Components
import CmdletForge.Proofs.Files.Listings
import CmdletForge.Proofs.Files.Reaching
import CmdletForge.Proofs.Display.Filters
import CmdletForge.Proofs.Text.CaseVariants
import CmdletForge.Proofs.Invocation.Membership
import CmdletForge.Proofs.Cmdlet.Registrations
import CmdletForge.Proofs.Source.Spellings
import CmdletForge.Proofs.Source.PhysicalLines
import CmdletForge.Proofs.Cmdlet.Descriptions
import CmdletForge.Proofs.Cmdlet.Aliases
import CmdletForge.Proofs.Display.Keys
