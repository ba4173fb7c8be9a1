import Filing.Cache.Interleaving
import Filing.Calendar.Format
import Filing.Catalogue.Menu
import Filing.Catalogue.Pairing
import Filing.Command.Run
import Filing.Decimal
import Filing.Dependency.Resolution
import Filing.Document.Export
import Filing.Form.Encoding
import Filing.Form.TemplateReader
import Filing.Json.Printer
import Filing.Json.Reader
import Filing.Main
import Filing.Proofs.Cache.Ownership
import Filing.Proofs.Cache.SingleFlight
import Filing.Proofs.Cache.Tally
import Filing.Proofs.Calendar.DayFirst
import Filing.Proofs.Catalogue.Menus
import Filing.Proofs.Catalogue.Pairings
import Filing.Proofs.Command.Exporting
import Filing.Proofs.Dependency.Components
import Filing.Proofs.Dependency.Declared
import Filing.Proofs.Dependency.Ordering
import Filing.Proofs.Dependency.Reported
import Filing.Proofs.Document.Fixpoint
import Filing.Proofs.Document.Foreign
import Filing.Proofs.Document.Legible
import Filing.Proofs.Document.Precheck
import Filing.Proofs.Document.Reload
import Filing.Proofs.Document.RoundTrip
import Filing.Proofs.Document.Strays
import Filing.Proofs.Document.Unplaced
import Filing.Proofs.Document.Verdict
import Filing.Proofs.Form.Collected
import Filing.Proofs.Form.Index
import Filing.Proofs.Form.Lifecycle
import Filing.Proofs.Form.Locality
import Filing.Proofs.Form.Remarks
import Filing.Proofs.Form.Storage
import Filing.Proofs.Margins
import Filing.Proofs.Text.Numbers
import Filing.Proofs.Validation.Accounting
import Filing.Proofs.Validation.Adjustments
import Filing.Proofs.Validation.Guard
import Filing.Proofs.Validation.Required
import Filing.Proofs.Validation.Scoring
import Filing.Proofs.Validation.TaxCodes
import Filing.Proofs.Xml.Edits
import Filing.Proofs.Xml.Placing
import Filing.Proofs.Xml.ReadBack
import Filing.Proofs.Xml.Readable
import Filing.Proofs.Xml.WellFormed
import Filing.Settings
import Filing.Toml.Reader
import Filing.Validation.Validate
import Filing.Xml.Reader
import Filing.Xml.Writer
