import DocQuery.Backend.Probe
import DocQuery.Entity.Schema
import DocQuery.Main
import DocQuery.Page.Json
import DocQuery.Client.Write
import DocQuery.Proofs.Grammar
import DocQuery.Proofs.Meaning
import DocQuery.Proofs.Outcome
import DocQuery.Proofs.Reading
import DocQuery.Proofs.Truth
import DocQuery.Proofs.Sorting
import DocQuery.Proofs.Slices
import DocQuery.Proofs.Access
import DocQuery.Proofs.Finding
import DocQuery.Proofs.Paging
import DocQuery.Proofs.Changes
import DocQuery.Proofs.Versions
import DocQuery.Proofs.Keys
import DocQuery.Proofs.Catalogue
import DocQuery.Proofs.Agreement
import DocQuery.Proofs.Pinning
import DocQuery.Proofs.Partitions
import DocQuery.Proofs.Removal
import DocQuery.Proofs.Equality
import DocQuery.Proofs.Uniqueness
import DocQuery.Proofs.Spanning
import DocQuery.Proofs.Tally
import DocQuery.Proofs.Shapes
import DocQuery.Proofs.Absorbing
import DocQuery.Proofs.Outline
import DocQuery.Proofs.Effects
import DocQuery.Proofs.Batches
import DocQuery.Proofs.Transcription
import DocQuery.Proofs.RoundTrip
import DocQuery.Proofs.Observing
import DocQuery.Proofs.Requests
import DocQuery.Proofs.Rejections
import DocQuery.Proofs.Walking
import DocQuery.Proofs.Reports
import DocQuery.Proofs.PointReads
import DocQuery.Proofs.Compilation
import DocQuery.Proofs.Printing
import DocQuery.Proofs.Reparsing
import DocQuery.Proofs.Rounding
import DocQuery.Proofs.Ordering
import DocQuery.Proofs.RecordText
import DocQuery.Proofs.PageStates
import DocQuery.Proofs.Parameters
import DocQuery.Proofs.Equivalence
import DocQuery.Proofs.Resuming
import DocQuery.Proofs.ReadBack
import DocQuery.Proofs.SortTexts
import DocQuery.Proofs.Caching
import DocQuery.Proofs.Placing
