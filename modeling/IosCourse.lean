import IosCourse.GuardedRuns
import IosCourse.MainQueue
import IosCourse.DocumentCollection
import IosCourse.SnapDocuments
import IosCourse.SnapSignIn
import IosCourse.SnapUpload
import IosCourse.SnapFeed
import IosCourse.SnapSystem
import IosCourse.SnapRaces
import IosCourse.SnapSequential
import IosCourse.SnapDisplay
import IosCourse.SnapExpiry
import IosCourse.SnapCleanup
import IosCourse.SnapProvenance
import IosCourse.SnapAlbums
import IosCourse.SnapConsistency
import IosCourse.SnapDelivery
import IosCourse.SnapSession
import IosCourse.SnapIdentity
import IosCourse.SnapLookups
import IosCourse.SnapLaunches
import IosCourse.ArtBook
import IosCourse.ManagedContext
import IosCourse.ParallelArrays
import IosCourse.LandmarkBook
import IosCourse.ListedContext
import IosCourse.ListedApplications
import IosCourse.ContextJournal
import IosCourse.ContextLifecycle
import IosCourse.SwiftInt
import IosCourse.ArtBookSaves
import IosCourse.TravelBook
import IosCourse.TravelBookPins
import IosCourse.TravelBookMap
import IosCourse.RecordLists
import IosCourse.RecordSaves
import IosCourse.RecordLifecycle
import IosCourse.FlintstoneGame
import IosCourse.FlintstoneRounds
import IosCourse.AngryBird
import IosCourse.AngryBirdRounds
import IosCourse.SimpleCalculator
import IosCourse.BirthdayNotes
import IosCourse.CurrencyRates
import IosCourse.CryptoCrazy
import IosCourse.ImageRecognition
import IosCourse.FaceRecognizer
import IosCourse.CryptoViper
import IosCourse.CryptoViperTable
