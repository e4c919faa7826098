import CallCatalog.Main
import CallCatalog.Proofs.BoundVariables
import CallCatalog.Proofs.Enumeration
import CallCatalog.Proofs.SupertypeWalk
import CallCatalog.Settings.LogFilter
import CallCatalog.Proofs.Questions
import CallCatalog.Proofs.SubtypeTermination
import CallCatalog.Proofs.SubtypeTransitivity
import CallCatalog.Proofs.CatalogContents
import CallCatalog.Proofs.Occurrences
import CallCatalog.Proofs.Formation
import CallCatalog.Proofs.Renaming
import CallCatalog.Proofs.RenamedStores
import CallCatalog.Proofs.Instantiations
import CallCatalog.Proofs.RenamedInstantiations
import CallCatalog.Proofs.RenamedCatalogs
import CallCatalog.Proofs.Resolution
import CallCatalog.Proofs.Interning
import CallCatalog.Proofs.Numbering
import CallCatalog.Proofs.Extraction
import CallCatalog.Proofs.ExtractedStores
import CallCatalog.Proofs.ExtractedCatalogs
import CallCatalog.Proofs.RenamedExtractions
import CallCatalog.Proofs.ExtractedClasses
import CallCatalog.Proofs.Reextraction
import CallCatalog.Proofs.DeclarationOrder
import CallCatalog.Proofs.TupleLimit
import CallCatalog.Proofs.Picks
import CallCatalog.Proofs.ExtractionFrame
import CallCatalog.Proofs.Substitutions
import CallCatalog.Proofs.ChosenInstantiations
import CallCatalog.Proofs.ReplacedWalks
import CallCatalog.Proofs.BoundReasoning
import CallCatalog.Proofs.StoreRuns
import CallCatalog.Proofs.StoreTables
import CallCatalog.Proofs.ReadPieces
import CallCatalog.Proofs.WrittenDocuments
import CallCatalog.Proofs.ReadingBack
import CallCatalog.Proofs.DescriptionRoundTrip
import CallCatalog.Proofs.MergedContributions
import CallCatalog.Proofs.ArgumentContainment
import CallCatalog.Proofs.SupertypeChains
import CallCatalog.Proofs.UniqueReadability
import CallCatalog.Proofs.ReadableSignatures
import CallCatalog.Proofs.ReplacedViews
import CallCatalog.Proofs.NominalSubtyping
import CallCatalog.Proofs.BoundChecks
import CallCatalog.Proofs.CandidateSelection
import CallCatalog.Proofs.IndexChoice
import CallCatalog.Proofs.ReorderedBounds
import CallCatalog.Proofs.ReorderedChecks
import CallCatalog.Proofs.ExaminedBounds
import CallCatalog.Proofs.ReorderedEnumeration
import CallCatalog.Proofs.EndlessEnumerations
import CallCatalog.Proofs.EndlessBuilds
import CallCatalog.Proofs.OpenedVariables
import CallCatalog.Proofs.ObserverGroups
import CallCatalog.Proofs.SpacedNames
import CallCatalog.Proofs.PrimitivePlaces
import CallCatalog.Proofs.DirectiveTexts
import CallCatalog.Proofs.EffectiveFilters
import CallCatalog.Proofs.TupleRuns
import CallCatalog.Proofs.SubstitutionLaws
