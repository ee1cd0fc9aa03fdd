import SchemaNaming.Config.Json.Printer
import SchemaNaming.Config.Load
import SchemaNaming.Session.Step
import SchemaNaming.Proofs.Registry.Stream
import SchemaNaming.Proofs.Cms.Components
import SchemaNaming.Proofs.Cms.Agreement
import SchemaNaming.Proofs.Cms.AllOrNothing
import SchemaNaming.Proofs.Cms.DocumentData
import SchemaNaming.Proofs.Cms.Scopes
import SchemaNaming.Proofs.Dispatch.Schedule
import SchemaNaming.Proofs.Dispatch.Books
import SchemaNaming.Proofs.Dispatch.Transparency
import SchemaNaming.Proofs.Dispatch.Selection
import SchemaNaming.Proofs.Dispatch.Abort
import SchemaNaming.Proofs.Config.Json
import SchemaNaming.Proofs.Config.Utf8
import SchemaNaming.Proofs.Config.Yaml.Typing
import SchemaNaming.Proofs.Config.Load
import SchemaNaming.Proofs.Config.Shape
import SchemaNaming.Proofs.Config.RoundTrip
import SchemaNaming.Proofs.Decimal.Reading
import SchemaNaming.Proofs.Decimal.Notation
import SchemaNaming.Proofs.Identifier.Version
import SchemaNaming.Proofs.Identifier.Spellings
import SchemaNaming.Proofs.Identifier.Influence
import SchemaNaming.Proofs.Identifier.Reprocessing
import SchemaNaming.Proofs.Identifier.Qualified
import SchemaNaming.Proofs.Identifier.Numbers
import SchemaNaming.Proofs.Cms.Operation
import SchemaNaming.Proofs.Cms.Repetition
import SchemaNaming.Proofs.Cms.Order
import SchemaNaming.Proofs.Cms.ReadBack
import SchemaNaming.Proofs.Registry.Arrivals
